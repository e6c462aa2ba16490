import Autoscaler.Analysis.ObserveCadence
import Autoscaler.Analysis.ObserverSampling

/-! The launch gate over the observation stream, and the analysis that checks it again. -/
namespace Autoscaler.Analysis

open MetricsProvider

/-- A line of the stream. A missing or noninteger sequence number is `none`. -/
structure StreamRow where
  kind : Option String
  sequence : Option ℤ
  observation : Row
  deriving DecidableEq

/-- What `select_anchor` returns. Times are in microseconds. -/
structure Anchor where
  previousObservation : StreamRow
  anchor : StreamRow
  plannedOnsetUnix : ℤ
  deriving DecidableEq

def isObservation (row : StreamRow) : Bool := row.kind == some "cpu_observation"

/-- `current.keys() == previous.keys()`. -/
def sameKeys (current previous : Sources) : Bool :=
  current.all (fun entry => (previous.map Prod.fst).contains entry.1) &&
    previous.all fun entry => (current.map Prod.fst).contains entry.1

/-- `all(current[key] > previous[key] for key in current)`. -/
def strictlyAdvanced (current previous : Sources) : Bool :=
  current.all fun (key, source) =>
    match previous.lookup key with
    | none => false
    | some old => decide (old < source)

/-- The observation before the current one, with its sources, if it was accepted. -/
abbrev Previous := Option (StreamRow × Sources)

def selectAnchor.accepts (previous : Previous) (started after : ℤ) (current : Sources) :
    Option StreamRow :=
  match previous with
  | none => none
  | some (row, sources) =>
    if after ≤ started ∧ sameKeys current sources = true ∧
        strictlyAdvanced current sources = true then some row
    else none

def selectAnchor.loop (targetUID : UID) (after offset : ℤ) :
    List StreamRow → Previous → ℤ → Option ℤ → Except String (Option Anchor)
  | [], _, _, _ => .ok none
  | row :: rest, previous, lastSequence, lastFinished =>
    if !isObservation row then loop targetUID after offset rest previous lastSequence lastFinished
    else if row.observation.targetUID ≠ targetUID then .error "CPU observation target changed"
    else
      let started := epoch row.observation.observationStartedAt
      let finished := epoch row.observation.observationFinishedAt
      if row.sequence ≠ some (lastSequence + 1) ∨ (∃ last ∈ lastFinished, started < last) ∨
          finished < started then
        .error "CPU observation stream is incomplete or out of order"
      else if row.observation.status ≠ "success" then
        loop targetUID after offset rest none (lastSequence + 1) (some finished)
      else
        match sourceSet row.observation targetUID with
        | .error err => .error err
        | .ok current =>
          match accepts previous started after current with
          | some before => .ok (some ⟨before, row, finished + offset * 1000000⟩)
          | none =>
            loop targetUID after offset rest (some (row, current)) (lastSequence + 1)
              (some finished)

/-- `select_anchor`, with the threshold `after` in microseconds and the offset in seconds. -/
def selectAnchor (rows : List StreamRow) (targetUID : UID) (after offset : ℤ) :
    Except String (Option Anchor) :=
  selectAnchor.loop targetUID after offset rows none 0 none

def sources.loop : List ContainerSource → Sources → Except String Sources
  | [], result => .ok result
  | container :: rest, result =>
    let key := identity container
    if !complete key || (result.map Prod.fst).contains key then
      .error "Empty or duplicate container identity"
    else
      match timestamp (epoch container.sourceTimestamp) with
      | .error err => .error err
      | .ok source => loop rest (result ++ [(key, source)])

/-- `sources` of the analysis, which reads an accepted observation again. -/
def sources (row : Row) : Except String Sources :=
  if row.containers = [] then .error "Accepted CPU observation lacks container sources"
  else sources.loop row.containers []

/-- `utilization_percent >= 5`, which fails too when there is no number to compare. -/
def notIdle (row : Row) : Bool :=
  match row.utilizationPercent with
  | some (.finite value) => decide (5 ≤ value)
  | some (.inf negative) => !negative
  | some .nan => false
  | none => true

def checkGate (cpu : List StreamRow) (targetUID : UID) (earliest offset : ℤ)
    (previous anchor : StreamRow) : Except String Unit :=
  let between := cpu.filter fun row =>
    row.sequence.any (fun sequence =>
      previous.sequence.any (fun before => decide (before < sequence)) &&
        anchor.sequence.any fun last => decide (sequence < last)) &&
      row.observation.status == "success"
  if previous ∉ cpu ∨ anchor ∉ cpu ∨ anchor.sequence ≠ previous.sequence.map (· + 1) then
    .error "Gate CPU observations disagree with retained stream"
  else if previous.observation.status ≠ "success" ∨ anchor.observation.status ≠ "success" ∨
      between ≠ [] then
    .error "Gate does not reference successive accepted CPU observations"
  else
    match sources previous.observation, sources anchor.observation with
    | .error err, _ => .error err
    | _, .error err => .error err
    | .ok before, .ok current =>
      if notIdle anchor.observation then .error "Verified CPU source anchor is no longer idle"
      else if sameKeys current before = false ∨ strictlyAdvanced current before = false then
        .error ("Gate requires strictly newer source samples for the entire unchanged " ++
          "container membership")
      else
        match selectAnchor cpu targetUID earliest offset with
        | .error err => .error err
        | .ok selected =>
          if selected.map Anchor.previousObservation ≠ some previous ∨
              selected.map Anchor.anchor ≠ some anchor then
            .error "Recorded gate skipped or changed the first eligible source anchor"
          else .ok ()

/-! The eligible pairs of observations. -/

def observations (rows : List StreamRow) : List StreamRow := rows.filter isObservation

def SameMembership (previous row : Row) : Prop :=
  (∀ c ∈ row.containers, identity c ∈ previous.containers.map identity) ∧
    ∀ c ∈ previous.containers, identity c ∈ row.containers.map identity

def Advanced (previous row : Row) : Prop :=
  ∀ c ∈ row.containers, ∀ old ∈ previous.containers, identity old = identity c →
    epoch old.sourceTimestamp < epoch c.sourceTimestamp

structure Eligible (after : ℤ) (previous row : Row) : Prop where
  previousAccepted : previous.status = "success"
  accepted : row.status = "success"
  started : after ≤ epoch row.observationStartedAt
  membership : SameMembership previous row
  advanced : Advanced previous row

/-- A stream that the gate and the analysis can read: the observations are numbered from one, of
the target, one after another, and the accepted ones pass `source_set`. -/
structure WellFormed (targetUID : UID) (rows : List StreamRow) : Prop where
  target : ∀ row ∈ observations rows, row.observation.targetUID = targetUID
  numbered : ∀ (i : ℕ) row, (observations rows)[i]? = some row → row.sequence = some ((i : ℤ) + 1)
  valid : ∀ row ∈ observations rows, epoch row.observation.observationStartedAt ≤
    epoch row.observation.observationFinishedAt
  ordered : (observations rows).IsChain fun row later =>
    epoch row.observation.observationFinishedAt ≤ epoch later.observation.observationStartedAt
  accepted : ∀ row ∈ observations rows, row.observation.status = "success" →
    ∃ current, sourceSet row.observation targetUID = .ok current
  dated : ∀ row ∈ observations rows, row.observation.status = "success" →
    ∀ c ∈ row.observation.containers, 0 < epoch c.sourceTimestamp

section Sources

variable {row previous : Row} {targetUID : UID}

theorem sourceSet.loop_ok {evaluated finished : ℤ} {containers : List ContainerSource}
    {found result : Sources} (h : sourceSet.loop evaluated finished containers found = .ok result) :
    result = found ++ containers.map sourceEntry ∧
      (∀ c ∈ containers, complete (identity c) = true) ∧
      (containers.map identity).Nodup ∧
      ∀ c ∈ containers, identity c ∉ found.map Prod.fst := by
  induction containers generalizing found with
  | nil =>
    cases h
    simp
  | cons container rest ih =>
    rw [sourceSet.loop] at h
    split_ifs at h with hbad hstale
    obtain ⟨hresult, hcomplete, hdistinct, hnew⟩ := ih h
    obtain ⟨hkey, hfresh⟩ : complete (identity container) = true ∧
        identity container ∉ found.map Prod.fst := by simpa using hbad
    have hother : ∀ c ∈ rest, identity c ∉ found.map Prod.fst ∧
        identity c ≠ identity container := by
      intro c hc
      have hc := hnew c hc
      rw [List.map_append, List.mem_append, not_or] at hc
      exact ⟨hc.1, fun heq => hc.2 (by simp [heq])⟩
    refine ⟨?_, List.forall_mem_cons.mpr ⟨hkey, hcomplete⟩, ?_, ?_⟩
    · rw [hresult, List.append_assoc]
      rfl
    · rw [List.map_cons, List.nodup_cons]
      refine ⟨fun hmem => ?_, hdistinct⟩
      obtain ⟨c, hc, heq⟩ := List.mem_map.mp hmem
      exact (hother c hc).2 heq
    · exact List.forall_mem_cons.mpr ⟨hfresh, fun c hc => (hother c hc).1⟩

/-- What `source_set` guarantees about an observation that passes. -/
theorem sourceSet_ok {current : Sources} (h : sourceSet row targetUID = .ok current) :
    current = row.containers.map sourceEntry ∧ row.status = "success" ∧ row.containers ≠ [] ∧
      (∀ c ∈ row.containers, complete (identity c) = true) ∧
      (row.containers.map identity).Nodup := by
  unfold sourceSet at h
  by_cases hprotocol : row.protocolVersion ≠ "cadence-cpu-v1" ∨ row.targetUID ≠ targetUID
  · rw [if_pos hprotocol] at h
    cases h
  rw [if_neg hprotocol] at h
  by_cases hsuccess : row.status ≠ "success" ∨ row.error ≠ ""
  · rw [if_pos hsuccess] at h
    cases h
  rw [if_neg hsuccess] at h
  have hstatus : row.status = "success" := not_not.mp (not_or.mp hsuccess).1
  cases hevaluated : row.evaluatedAt with
  | none =>
    rw [hevaluated] at h
    cases h
  | some evaluatedAt =>
    rw [hevaluated] at h
    dsimp only at h
    split_ifs at h
    cases hloop : sourceSet.loop (epoch evaluatedAt) (epoch row.observationFinishedAt)
        row.containers [] with
    | error err =>
      rw [hloop] at h
      cases h
    | ok found =>
      obtain ⟨hfound, hcomplete, hdistinct, -⟩ := sourceSet.loop_ok hloop
      rw [List.nil_append] at hfound
      rw [hloop] at h
      cases found with
      | nil => cases h
      | cons first rest =>
        have hne : row.containers ≠ [] := by
          intro hnil
          rw [hnil] at hfound
          cases hfound
        cases hsource : row.sourceTimestamp with
        | none =>
          rw [hsource] at h
          cases h
        | some oldest =>
          rw [hsource] at h
          dsimp only at h
          split_ifs at h
          cases h
          exact ⟨hfound, hstatus, hne, hcomplete, hdistinct⟩

theorem sameKeys_iff : sameKeys (row.containers.map sourceEntry)
    (previous.containers.map sourceEntry) = true ↔ SameMembership previous row := by
  have hkeys : ∀ containers : List ContainerSource,
      (containers.map sourceEntry).map Prod.fst = containers.map identity := by
    intro containers
    rw [List.map_map]
    rfl
  have hkey : ∀ c, (sourceEntry c).1 = identity c := fun _ => rfl
  unfold sameKeys
  rw [Bool.and_eq_true, List.all_eq_true, List.all_eq_true, List.forall_mem_map,
    List.forall_mem_map, hkeys, hkeys]
  simp only [List.contains_iff_mem, hkey]
  rfl

theorem lookup_sourceEntry {containers : List ContainerSource}
    (hdistinct : (containers.map identity).Nodup) {old : ContainerSource}
    (hold : old ∈ containers) :
    (containers.map sourceEntry).lookup (identity old) = some (epoch old.sourceTimestamp) := by
  induction containers with
  | nil => cases hold
  | cons first rest ih =>
    rw [List.map_cons, List.nodup_cons] at hdistinct
    rw [List.map_cons, List.lookup_cons]
    rcases List.mem_cons.mp hold with rfl | hmem
    · simp [sourceEntry]
    · have hne : identity old ≠ identity first :=
        fun heq => hdistinct.1 (heq ▸ List.mem_map_of_mem hmem)
      have hbeq : (identity old == (sourceEntry first).1) = false := beq_false_of_ne hne
      rw [hbeq]
      exact ih hdistinct.2 hmem

theorem strictlyAdvanced_iff (hdistinct : (previous.containers.map identity).Nodup)
    (hsame : SameMembership previous row) :
    strictlyAdvanced (row.containers.map sourceEntry) (previous.containers.map sourceEntry) = true ↔
      Advanced previous row := by
  unfold strictlyAdvanced
  rw [List.all_eq_true, List.forall_mem_map]
  refine forall_congr' fun c => forall_congr' fun hc => ?_
  obtain ⟨old, hold, hidentity⟩ := List.mem_map.mp (hsame.1 c hc)
  have hlookup : (previous.containers.map sourceEntry).lookup (sourceEntry c).1 =
      some (epoch old.sourceTimestamp) := by
    have hold := lookup_sourceEntry hdistinct hold
    rwa [hidentity] at hold
  dsimp only
  rw [hlookup]
  dsimp only
  rw [decide_eq_true_eq]
  constructor
  · intro hlt old' hold' hidentity'
    have hsame := List.inj_on_of_nodup_map hdistinct hold hold' (hidentity.trans hidentity'.symm)
    exact hsame ▸ hlt
  · intro hall
    exact hall old hold hidentity

theorem sources.loop_eq {containers : List ContainerSource} {found : Sources}
    (hcomplete : ∀ c ∈ containers, complete (identity c) = true)
    (hdistinct : (found.map Prod.fst ++ containers.map identity).Nodup)
    (hdated : ∀ c ∈ containers, 0 < epoch c.sourceTimestamp) :
    sources.loop containers found = .ok (found ++ containers.map sourceEntry) := by
  induction containers generalizing found with
  | nil => simp [sources.loop]
  | cons container rest ih =>
    obtain ⟨hkey, hcomplete⟩ := List.forall_mem_cons.mp hcomplete
    obtain ⟨hsource, hdated⟩ := List.forall_mem_cons.mp hdated
    obtain ⟨hnew, hrest⟩ := fresh_key hdistinct
    rw [sources.loop, hkey, hnew, timestamp_of_pos hsource]
    refine (ih hcomplete hrest hdated).trans ?_
    rw [List.append_assoc]
    rfl

/-- The analysis reads the same sources from an accepted observation as the gate. -/
theorem sources_of_sourceSet {current : Sources} (h : sourceSet row targetUID = .ok current)
    (hdated : ∀ c ∈ row.containers, 0 < epoch c.sourceTimestamp) :
    sources row = .ok (row.containers.map sourceEntry) := by
  obtain ⟨-, -, hne, hcomplete, hdistinct⟩ := sourceSet_ok h
  have hfresh : (([] : Sources).map Prod.fst ++ row.containers.map identity).Nodup := hdistinct
  rw [sources, if_neg hne, sources.loop_eq hcomplete hfresh hdated, List.nil_append]

end Sources

instance (after : ℤ) (previous row : Row) : Decidable (Eligible after previous row) :=
  decidable_of_iff (previous.status = "success" ∧ row.status = "success" ∧
      after ≤ epoch row.observationStartedAt ∧
      ((∀ c ∈ row.containers, identity c ∈ previous.containers.map identity) ∧
        ∀ c ∈ previous.containers, identity c ∈ row.containers.map identity) ∧
      ∀ c ∈ row.containers, ∀ old ∈ previous.containers, identity old = identity c →
        epoch old.sourceTimestamp < epoch c.sourceTimestamp)
    ⟨fun ⟨hprevious, haccepted, hstarted, hmembership, hadvanced⟩ =>
      ⟨hprevious, haccepted, hstarted, hmembership, hadvanced⟩,
      fun h => ⟨h.previousAccepted, h.accepted, h.started, h.membership, h.advanced⟩⟩

def pairAnchor (offset : ℤ) (pair : StreamRow × StreamRow) : Anchor :=
  ⟨pair.1, pair.2, epoch pair.2.observation.observationFinishedAt + offset * 1000000⟩

def eligiblePair (after : ℤ) (pair : StreamRow × StreamRow) : Bool :=
  decide (Eligible after pair.1.observation pair.2.observation)

/-- What the loop holds after an observation. -/
def held (targetUID : UID) (row : StreamRow) : Previous :=
  if row.observation.status = "success" then
    (sourceSet row.observation targetUID).toOption.map fun current => (row, current)
  else none

section Loop

variable {targetUID : UID} {after offset : ℤ} {rows more : List StreamRow} {anchor : Anchor}

theorem selectAnchor.loop_observations (previous : Previous) (lastSequence : ℤ)
    (lastFinished : Option ℤ) :
    selectAnchor.loop targetUID after offset rows previous lastSequence lastFinished =
      selectAnchor.loop targetUID after offset (observations rows) previous lastSequence
        lastFinished := by
  induction rows generalizing previous lastSequence lastFinished with
  | nil => rfl
  | cons row rest ih =>
    cases hkind : isObservation row with
    | false =>
      rw [observations, List.filter_cons_of_neg (by simpa using hkind), selectAnchor.loop, hkind,
        if_pos (by rfl), ih]
      rfl
    | true =>
      have hcons : observations (row :: rest) = row :: observations rest :=
        List.filter_cons_of_pos hkind
      rw [hcons, selectAnchor.loop, selectAnchor.loop]
      simp only [ih]

/-- Lines after an anchor do not change it. -/
theorem selectAnchor.loop_append {previous : Previous} {lastSequence : ℤ}
    {lastFinished : Option ℤ}
    (h : selectAnchor.loop targetUID after offset rows previous lastSequence lastFinished =
      .ok (some anchor)) :
    selectAnchor.loop targetUID after offset (rows ++ more) previous lastSequence lastFinished =
      .ok (some anchor) := by
  induction rows generalizing previous lastSequence lastFinished with
  | nil => cases h
  | cons row rest ih =>
    rw [List.cons_append, selectAnchor.loop]
    rw [selectAnchor.loop] at h
    dsimp only at h ⊢
    split_ifs at h ⊢ with hkind htarget horder hstatus
    · exact ih h
    · exact ih h
    · cases hsources : sourceSet row.observation targetUID with
      | error err =>
        rw [hsources] at h
        cases h
      | ok current =>
        rw [hsources] at h
        dsimp only at h ⊢
        cases haccepts : selectAnchor.accepts previous
            (epoch row.observation.observationStartedAt) after current with
        | some before =>
          rw [haccepts] at h
          exact h
        | none =>
          rw [haccepts] at h
          exact ih h

/-- The test of the loop is eligibility. -/
theorem accepts_held {previous row : StreamRow} {current : Sources}
    (hprevious : previous.observation.status = "success" →
      ∃ sources, sourceSet previous.observation targetUID = .ok sources)
    (hcurrent : sourceSet row.observation targetUID = .ok current) :
    selectAnchor.accepts (held targetUID previous) (epoch row.observation.observationStartedAt)
        after current =
      if eligiblePair after (previous, row) = true then some previous else none := by
  obtain ⟨hrow, haccepted, -, -, -⟩ := sourceSet_ok hcurrent
  unfold eligiblePair held
  dsimp only
  by_cases hstatus : previous.observation.status = "success"
  · obtain ⟨old, hold⟩ := hprevious hstatus
    obtain ⟨hsources, -, -, -, hdistinct⟩ := sourceSet_ok hold
    rw [if_pos hstatus, hold]
    refine if_congr ?_ rfl rfl
    rw [hrow, hsources, sameKeys_iff, decide_eq_true_eq]
    constructor
    · rintro ⟨hstarted, hsame, hadvanced⟩
      have hlater := (strictlyAdvanced_iff hdistinct hsame).mp hadvanced
      exact ⟨hstatus, haccepted, hstarted, hsame, hlater⟩
    · intro h
      exact ⟨h.started, h.membership, (strictlyAdvanced_iff hdistinct h.membership).mpr h.advanced⟩
  · rw [if_neg hstatus, if_neg]
    · rfl
    · rw [decide_eq_true_eq]
      exact fun h => hstatus h.previousAccepted

theorem observations_idem : observations (observations rows) = observations rows := by
  rw [observations, observations, List.filter_filter]
  simp

theorem WellFormed.observations (h : WellFormed targetUID rows) :
    WellFormed targetUID (Analysis.observations rows) := by
  constructor <;> rw [observations_idem]
  exacts [h.target, h.numbered, h.valid, h.ordered, h.accepted, h.dated]

/-- The next observation of a well-formed stream is in order. -/
theorem WellFormed.in_order {done rest : List StreamRow} {row : StreamRow}
    (hall : Analysis.observations (done ++ row :: rest) = done ++ row :: rest)
    (h : WellFormed targetUID (done ++ row :: rest)) :
    ¬ (row.sequence ≠ some ((done.length : ℤ) + 1) ∨
      (∃ last ∈ done.getLast?.map fun row => epoch row.observation.observationFinishedAt,
        epoch row.observation.observationStartedAt < last) ∨
      epoch row.observation.observationFinishedAt <
        epoch row.observation.observationStartedAt) := by
  rintro (hne | ⟨last, hlast, hlt⟩ | hlt)
  · refine hne (h.numbered done.length row ?_)
    rw [hall]
    simp
  · obtain ⟨before, hbefore, rfl⟩ := Option.map_eq_some_iff.mp hlast
    have hchain := h.ordered
    rw [hall] at hchain
    exact hlt.not_ge ((List.isChain_append.mp hchain).2.2 before hbefore row rfl)
  · refine hlt.not_ge (h.valid row ?_)
    rw [hall]
    simp

theorem filter_pair_of_failed {row : StreamRow} (hstatus : row.observation.status ≠ "success")
    (before : Option StreamRow) :
    (before.map fun before => (before, row)).filter (eligiblePair after) = none := by
  cases before with
  | none => rfl
  | some before =>
    have hnot : eligiblePair after (before, row) = false :=
      decide_eq_false fun heligible => hstatus heligible.accepted
    simp [Option.filter, hnot]

/-- The loop, after the observations `done`, looks for the first eligible pair. -/
theorem selectAnchor.loop_eq (done : List StreamRow) {rest : List StreamRow}
    (hall : observations (done ++ rest) = done ++ rest) (h : WellFormed targetUID (done ++ rest)) :
    selectAnchor.loop targetUID after offset rest (done.getLast?.bind (held targetUID)) done.length
        (done.getLast?.map fun row => epoch row.observation.observationFinishedAt) =
      .ok ((((done.getLast?.toList ++ rest).zip (done.getLast?.toList ++ rest).tail).find?
        (eligiblePair after)).map (pairAnchor offset)) := by
  induction rest generalizing done with
  | nil =>
    cases done.getLast? <;> rfl
  | cons row rest ih =>
    have hmem : row ∈ observations (done ++ row :: rest) := by
      rw [hall]
      simp
    have horder := h.in_order hall
    have hnext : done ++ row :: rest = (done ++ [row]) ++ rest := by simp
    have hrest := ih (done ++ [row]) (by rw [← hnext, hall]) (by rwa [← hnext])
    rw [List.getLast?_concat, List.length_append, Nat.cast_add, List.length_singleton,
      Nat.cast_one] at hrest
    change selectAnchor.loop targetUID after offset rest (held targetUID row) (done.length + 1)
      (some (epoch row.observation.observationFinishedAt)) =
        .ok ((((row :: rest).zip rest).find? (eligiblePair after)).map (pairAnchor offset)) at hrest
    have hkind : isObservation row = true := (List.mem_filter.mp hmem).2
    rw [selectAnchor.loop, hkind, if_neg (by simp), if_neg (not_not.mpr (h.target row hmem))]
    dsimp only
    rw [if_neg horder]
    -- a first observation has no pair of its own
    rw [Adjacent.find?_zip_tail]
    by_cases hstatus : row.observation.status = "success"
    · obtain ⟨current, hcurrent⟩ := h.accepted row hmem hstatus
      have hheld : held targetUID row = some (row, current) := by
        rw [held, if_pos hstatus, hcurrent]
        rfl
      rw [hheld] at hrest
      rw [if_neg (not_not.mpr hstatus), hcurrent]
      dsimp only
      cases hlast : done.getLast? with
      | none => exact hrest
      | some before =>
        have hbefore : before ∈ observations (done ++ row :: rest) := by
          rw [hall]
          exact List.mem_append_left _ (List.mem_of_getLast? hlast)
        change (match selectAnchor.accepts (held targetUID before) _ after current with
          | some before => _
          | none => _) = _
        rw [accepts_held (h.accepted before hbefore) hcurrent]
        by_cases heligible : eligiblePair after (before, row) = true
        · rw [if_pos heligible]
          simp [Option.filter, heligible, pairAnchor]
        · rw [if_neg heligible]
          simpa [Option.filter, heligible] using hrest
    · have hheld : held targetUID row = none := if_neg hstatus
      rw [hheld] at hrest
      rw [if_pos hstatus, filter_pair_of_failed hstatus, Option.none_or]
      exact hrest

/-- The first eligible pair of consecutive observations. -/
theorem selectAnchor_eq (h : WellFormed targetUID rows) :
    selectAnchor rows targetUID after offset =
      .ok ((((observations rows).zip (observations rows).tail).find? (eligiblePair after)).map
        (pairAnchor offset)) := by
  rw [selectAnchor, selectAnchor.loop_observations]
  exact selectAnchor.loop_eq [] observations_idem h.observations

theorem selectAnchor_append (h : selectAnchor rows targetUID after offset = .ok (some anchor)) :
    selectAnchor (rows ++ more) targetUID after offset = .ok (some anchor) :=
  selectAnchor.loop_append h

end Loop

/-- The anchor is the first observation that is eligible after the one before it. -/
structure FirstAnchor (rows : List StreamRow) (after offset : ℤ) (anchor : Anchor) : Prop where
  eligible : Eligible after anchor.previousObservation.observation anchor.anchor.observation
  first : ∃ earlier later, (observations rows).zip (observations rows).tail =
      earlier ++ (anchor.previousObservation, anchor.anchor) :: later ∧
    ∀ pair ∈ earlier, ¬ Eligible after pair.1.observation pair.2.observation
  planned : anchor.plannedOnsetUnix =
    epoch anchor.anchor.observation.observationFinishedAt + offset * 1000000

section First

variable {targetUID : UID} {after offset : ℤ} {rows more : List StreamRow} {anchor : Anchor}

theorem selectAnchor_some_iff (h : WellFormed targetUID rows) :
    selectAnchor rows targetUID after offset = .ok (some anchor) ↔
      FirstAnchor rows after offset anchor := by
  rw [selectAnchor_eq h, Except.ok.injEq, Option.map_eq_some_iff]
  constructor
  · rintro ⟨⟨previous, row⟩, hfind, rfl⟩
    obtain ⟨heligible, earlier, later, hsplit, hearlier⟩ := List.find?_eq_some_iff_append.mp hfind
    refine ⟨of_decide_eq_true heligible, ⟨earlier, later, hsplit, fun pair hpair => ?_⟩, rfl⟩
    simpa [eligiblePair] using hearlier pair hpair
  · rintro ⟨heligible, ⟨earlier, later, hsplit, hearlier⟩, hplanned⟩
    refine ⟨(anchor.previousObservation, anchor.anchor),
      List.find?_eq_some_iff_append.mpr ⟨decide_eq_true heligible, earlier, later, hsplit, ?_⟩, ?_⟩
    · intro pair hpair
      simpa [eligiblePair] using hearlier pair hpair
    · rw [pairAnchor, ← hplanned]

theorem selectAnchor_none_iff (h : WellFormed targetUID rows) :
    selectAnchor rows targetUID after offset = .ok none ↔
      ∀ pair ∈ (observations rows).zip (observations rows).tail,
        ¬ Eligible after pair.1.observation pair.2.observation := by
  rw [selectAnchor_eq h, Except.ok.injEq, Option.map_eq_none_iff, List.find?_eq_none]
  simp [eligiblePair]

theorem FirstAnchor.adjacent (h : FirstAnchor rows after offset anchor) :
    ∃ pre post, observations rows =
      pre ++ anchor.previousObservation :: anchor.anchor :: post := by
  obtain ⟨earlier, later, hsplit, -⟩ := h.first
  exact Adjacent.mem_zip_tail_iff.mp (by rw [hsplit]; simp)

theorem FirstAnchor.mem_observations (h : FirstAnchor rows after offset anchor) :
    anchor.previousObservation ∈ observations rows ∧ anchor.anchor ∈ observations rows := by
  obtain ⟨pre, post, hsplit⟩ := h.adjacent
  rw [hsplit]
  exact ⟨by simp, by simp⟩

theorem FirstAnchor.consecutive (h : FirstAnchor rows after offset anchor)
    (hrows : WellFormed targetUID rows) :
    ∃ n, anchor.previousObservation.sequence = some n ∧ anchor.anchor.sequence = some (n + 1) := by
  obtain ⟨pre, post, hsplit⟩ := h.adjacent
  refine ⟨(pre.length : ℤ) + 1, hrows.numbered pre.length _ ?_, ?_⟩
  · rw [hsplit]
    simp
  · have hnumbered := hrows.numbered (pre.length + 1) anchor.anchor
    rw [hsplit] at hnumbered
    rw [hnumbered (by simp)]
    push_cast
    rfl

theorem not_between (n : ℤ) (sequence : Option ℤ) :
    (sequence.any fun sequence => ((some n).any fun before => decide (before < sequence)) &&
      (some (n + 1)).any fun last => decide (sequence < last)) = false := by
  cases sequence with
  | none => rfl
  | some sequence =>
    have hnone : ¬ (n < sequence ∧ sequence < n + 1) := by omega
    simp only [Option.any_some, ← Bool.decide_and, decide_eq_false_iff_not]
    exact hnone

/-- The analysis finds nothing to object to in the anchor of a prefix, except that the containers
were busy. -/
theorem checkGate_of_selectAnchor (h : WellFormed targetUID rows)
    (hanchor : selectAnchor rows targetUID after offset = .ok (some anchor)) :
    checkGate (observations (rows ++ more)) targetUID after offset anchor.previousObservation
        anchor.anchor =
      if notIdle anchor.anchor.observation then
        .error "Verified CPU source anchor is no longer idle"
      else .ok () := by
  have hfirst := (selectAnchor_some_iff h).mp hanchor
  obtain ⟨hprevious, hrow⟩ := hfirst.mem_observations
  obtain ⟨n, hbefore, hafter⟩ := hfirst.consecutive h
  have hextend : ∀ row ∈ observations rows, row ∈ observations (rows ++ more) := by
    intro row hmem
    rw [observations, List.filter_append]
    exact List.mem_append_left _ hmem
  obtain ⟨old, hold⟩ := h.accepted _ hprevious hfirst.eligible.previousAccepted
  obtain ⟨current, hcurrent⟩ := h.accepted _ hrow hfirst.eligible.accepted
  have hdistinct := (sourceSet_ok hold).2.2.2.2
  have hselect : selectAnchor (observations (rows ++ more)) targetUID after offset =
      .ok (some anchor) := by
    rw [selectAnchor, ← selectAnchor.loop_observations]
    exact selectAnchor_append hanchor
  unfold checkGate
  dsimp only
  rw [if_neg, if_neg,
    sources_of_sourceSet hold (h.dated _ hprevious hfirst.eligible.previousAccepted),
    sources_of_sourceSet hcurrent (h.dated _ hrow hfirst.eligible.accepted), hselect]
  · dsimp only
    rw [sameKeys_iff.mpr hfirst.eligible.membership,
      (strictlyAdvanced_iff hdistinct hfirst.eligible.membership).mpr hfirst.eligible.advanced]
    simp
  · rintro (hne | hne | hne)
    · exact hne hfirst.eligible.previousAccepted
    · exact hne hfirst.eligible.accepted
    · refine hne (List.filter_eq_nil_iff.mpr fun row _ => ?_)
      rw [hbefore, hafter, not_between]
      exact Bool.false_ne_true
  · rintro (hne | hne | hne)
    · exact hne (hextend _ hprevious)
    · exact hne (hextend _ hrow)
    · rw [hbefore, hafter] at hne
      exact hne rfl

end First

/-- The gate selects the first eligible observation or none if there is none; later lines leave the
selection as it is, and the analysis of the whole stream confirms it. -/
theorem launch_anchor_first (targetUID : UID) (rows : List StreamRow)
    (h : WellFormed targetUID rows) (after offset : ℤ) :
    (∃ selected, selectAnchor rows targetUID after offset = .ok selected) ∧
    (∀ anchor, selectAnchor rows targetUID after offset = .ok (some anchor) ↔
      FirstAnchor rows after offset anchor) ∧
    (selectAnchor rows targetUID after offset = .ok none ↔
      ∀ pair ∈ (observations rows).zip (observations rows).tail,
        ¬ Eligible after pair.1.observation pair.2.observation) ∧
    ∀ anchor more, selectAnchor rows targetUID after offset = .ok (some anchor) →
      selectAnchor (rows ++ more) targetUID after offset = .ok (some anchor) ∧
      checkGate (observations (rows ++ more)) targetUID after offset anchor.previousObservation
          anchor.anchor =
        if notIdle anchor.anchor.observation then
          .error "Verified CPU source anchor is no longer idle"
        else .ok () :=
  ⟨⟨_, selectAnchor_eq h⟩, fun _ => selectAnchor_some_iff h, selectAnchor_none_iff h,
    fun _ _ hanchor => ⟨selectAnchor_append hanchor, checkGate_of_selectAnchor h hanchor⟩⟩

/-! Three observations of two containers. The second one repeats the source of the sidecar. -/

def observationRow (sequence seconds app sidecar : ℤ) : StreamRow where
  kind := some "cpu_observation"
  sequence := some sequence
  observation :=
    { protocolVersion := "cadence-cpu-v1"
      targetUID := "target"
      status := "success"
      error := ""
      observationStartedAt := Time.unixEpoch + seconds * second
      observationFinishedAt := Time.unixEpoch + seconds * second + 100 * millisecond
      evaluatedAt := some (Time.unixEpoch + seconds * second)
      sourceTimestamp := some (Time.unixEpoch + min app sidecar * second)
      utilizationPercent := some (.finite 1)
      containers := [⟨"web", "pod", "app", "app-runtime", Time.unixEpoch + app * second⟩,
        ⟨"web", "pod", "sidecar", "sidecar-runtime", Time.unixEpoch + sidecar * second⟩] }

def partialRows : List StreamRow :=
  [observationRow 1 101 90 91, observationRow 2 102 92 91, observationRow 3 103 93 94]

theorem partialRows_wellFormed : WellFormed "target" partialRows where
  target := by decide +kernel
  numbered i row hrow := by
    have hall : observations partialRows = partialRows := by decide +kernel
    rw [hall] at hrow
    rcases i with _ | _ | _ | i
    · cases hrow
      rfl
    · cases hrow
      rfl
    · cases hrow
      rfl
    · cases hrow
  valid := by decide +kernel
  ordered := by decide +kernel
  accepted row hrow _ := by
    have hall : ∀ row ∈ observations partialRows,
        (sourceSet row.observation "target").isOk = true := by decide +kernel
    cases hsources : sourceSet row.observation "target" with
    | error err =>
      have hok := hall row hrow
      rw [hsources] at hok
      cases hok
    | ok current => exact ⟨current, rfl⟩
  dated := by decide +kernel

/-- Only the third observation advances every source of the one before it. -/
theorem launch_anchor_first_partial :
    selectAnchor partialRows "target" (100 * 1000000) 2 =
      .ok (some ⟨observationRow 2 102 92 91, observationRow 3 103 93 94, 105100000⟩) ∧
    checkGate (observations (partialRows ++ [observationRow 4 104 95 95])) "target"
      (100 * 1000000) 2 (observationRow 2 102 92 91) (observationRow 3 103 93 94) = .ok () := by
  have hselect : selectAnchor partialRows "target" (100 * 1000000) 2 =
      .ok (some ⟨observationRow 2 102 92 91, observationRow 3 103 93 94, 105100000⟩) := by
    decide +kernel
  have hextend := (launch_anchor_first "target" partialRows partialRows_wellFormed
    (100 * 1000000) 2).2.2.2 _ [observationRow 4 104 95 95] hselect
  exact ⟨hselect, hextend.2⟩

end Autoscaler.Analysis
