import Autoscaler.Analysis.ObserverStream
import Autoscaler.Library.ComparisonSort
import Autoscaler.Library.Demultiplex
import Mathlib.Data.List.Sort

/-! The reconciliations that the analysis reads back from the controller's log. -/
namespace Autoscaler.Analysis

open LiveCampaign (Json PyError)

inductive Message where
  | query
  | decision
  | scale
  | finish
  deriving DecidableEq, Repr

def Message.text : Message → String
  | .query => "Queried CPU utilization"
  | .decision => "Evaluated PredictiveHPA scaling decision"
  | .scale => "Scaled Deployment"
  | .finish => "Finished PredictiveHPA reconciliation"

def logEvents : List (String × Message) :=
  [(Message.text .query, .query), (Message.text .decision, .decision),
    (Message.text .scale, .scale), (Message.text .finish, .finish)]

/-- One reconciliation; a row is missing as long as its line was not read. -/
structure LogCycle where
  reconcileID : Json
  reconcileStartedAt : Json
  query : Option Json
  decision : Option Json
  scale : Option Json
  finish : Option Json

def LogCycle.get (cycle : LogCycle) : Message → Option Json
  | .query => cycle.query
  | .decision => cycle.decision
  | .scale => cycle.scale
  | .finish => cycle.finish

def LogCycle.set (cycle : LogCycle) (message : Message) (row : Json) : LogCycle :=
  match message with
  | .query => { cycle with query := some row }
  | .decision => { cycle with decision := some row }
  | .scale => { cycle with scale := some row }
  | .finish => { cycle with finish := some row }

/-- The library functions of the analysis: `json.loads`, the timestamp of a parsed ISO date, `repr`,
and the text of `UnicodeDecodeError`. -/
structure LogParsers where
  loads : List Char → Except PyError Json
  timestamp : List Char → Except PyError ℚ
  repr : Json → String
  undecodable : ByteArray → String

/-- Lists and dictionaries are no keys. -/
def hashable : Json → Except PyError Unit
  | .array _ => .error ⟨.typeError, "unhashable type: 'list'"⟩
  | .object _ => .error ⟨.typeError, "unhashable type: 'dict'"⟩
  | _ => .ok ()

def eventOf (message : Json) : Except PyError (Option Message) := do
  hashable message
  match message with
  | .string text => return logEvents.lookup text
  | _ => return none

/-- `line.split("\t", n)` -/
def splitTab : ℕ → List Char → List (List Char)
  | 0, line => [line]
  | n + 1, line =>
    match line.dropWhile (· != '\t') with
    | [] => [line]
    | _ :: rest => line.takeWhile (· != '\t') :: splitTab n rest

def stripLineEnd (line : List Char) : List Char :=
  (line.reverse.dropWhile fun c => c == '\r' || c == '\n').reverse

def mentionsEvent (line : List Char) : Bool :=
  logEvents.any fun event => decide (event.1.toList <:+: line)

variable (parsers : LogParsers)

/-- `epoch`, exactly. -/
def logEpoch : Json → Except PyError ℚ
  | .bool value => .ok (if value then 1 else 0)
  | .int value => .ok value
  | .float value => .ok value
  | .string text =>
    parsers.timestamp (text.toList.flatMap fun c => if c = 'Z' then "+00:00".toList else [c])
  | value => .error ⟨.valueError, "Invalid timestamp: " ++ parsers.repr value⟩

def readLine (line : List Char) : Except PyError (Option (Message × Json)) :=
  if line.head? = some '{' then do
    let row ← parsers.loads line
    let message ← eventOf (← row.get "msg")
    return message.map fun message => (message, row)
  else
    match splitTab 3 line with
    | [_, _, message, payload] =>
      match logEvents.lookup (.ofList message) with
      | none => .ok none
      | some message => do
        let row ← parsers.loads payload
        return some (message, row)
    | _ => .ok none

def recordRow (reconcileID start : Json) (message : Message) (row : Json) :
    List LogCycle → Except PyError (List LogCycle)
  | [] =>
    let cycle : LogCycle := ⟨reconcileID, start, none, none, none, none⟩
    .ok [cycle.set message row]
  | cycle :: rest =>
    if cycle.reconcileID == reconcileID && cycle.reconcileStartedAt == start then
      if (cycle.get message).isSome then
        .error ⟨.valueError, "Duplicate " ++ message.text ++ " in one reconciliation"⟩
      else .ok (cycle.set message row :: rest)
    else do
      let rest ← recordRow reconcileID start message row rest
      return cycle :: rest

def addRow (cycles : List LogCycle) (message : Message) (row : Json) :
    Except PyError (List LogCycle) := do
  let start ← row.getItem "reconcileStartedAt"
  let reconcileID ← row.get "reconcileID"
  hashable reconcileID
  hashable start
  recordRow reconcileID start message row cycles

def addLine (ignoreIncompleteTail : Bool) (cycles : List LogCycle) (line : List Char) :
    Except PyError (List LogCycle) :=
  if ignoreIncompleteTail && line.getLast? != some '\n' then .ok cycles
  else
    let line := stripLineEnd line
    if !mentionsEvent line then .ok cycles
    else
      match readLine parsers line with
      | .error error => .error error
      | .ok none => .ok cycles
      | .ok (some (message, row)) => addRow cycles message row

/-- The reconciliations with their starts, in the order of these. -/
def sortCycles (cycles : List LogCycle) : Except PyError (List LogCycle) := do
  let dated ← cycles.mapM fun cycle => do
    return (← logEpoch parsers cycle.reconcileStartedAt, cycle)
  return (dated.insertionSort fun a b => a.1 ≤ b.1).map Prod.snd

def cyclesOfText (ignoreIncompleteTail : Bool) (text : List Char) :
    Except PyError (List LogCycle) := do
  let cycles ← (splitlinesKeepends text).foldlM (addLine parsers ignoreIncompleteTail) []
  sortCycles parsers cycles

/-- `controller_cycles` of a file with these bytes. -/
def controllerCycles (ignoreIncompleteTail : Bool) (content : ByteArray) :
    Except PyError (List LogCycle) :=
  match TextFile.readText content with
  | none => .error ⟨.valueError, parsers.undecodable content⟩
  | some text => cyclesOfText parsers ignoreIncompleteTail text

/-! Reading a log in which reconciliations and other lines are interleaved. -/

/-- What tells the lines of a reconciliation from those of the others. -/
structure CycleKey where
  reconcileID : String
  startedAt : String
  deriving DecidableEq, Repr

/-- The reconciliation with these rows. -/
def cycleOf (group : CycleKey × List (Message × Json)) : LogCycle where
  reconcileID := .string group.1.reconcileID
  reconcileStartedAt := .string group.1.startedAt
  query := group.2.lookup .query
  decision := group.2.lookup .decision
  scale := group.2.lookup .scale
  finish := group.2.lookup .finish

theorem get_cycleOf (group : CycleKey × List (Message × Json)) (message : Message) :
    (cycleOf group).get message = group.2.lookup message := by
  cases message <;> rfl

theorem set_cycleOf {key : CycleKey} {rows : List (Message × Json)} {message : Message}
    (h : rows.lookup message = none) (row : Json) :
    (cycleOf (key, rows)).set message row = cycleOf (key, rows ++ [(message, row)]) := by
  have hself : (rows ++ [(message, row)]).lookup message = some row := by
    rw [List.lookup_append, h]
    simp
  have hother : ∀ other, other ≠ message →
      (rows ++ [(message, row)]).lookup other = rows.lookup other := by
    intro other hne
    rw [List.lookup_append, List.lookup_cons, beq_false_of_ne hne]
    simp
  cases message <;> simp [cycleOf, LogCycle.set, hself, hother]

/-- A line of the log with the reconciliation and the row that it belongs to, if any. -/
structure LogLine where
  text : List Char
  owner : Option (CycleKey × Message × Json)

/-- A line with a row, in the console format or as JSON. -/
inductive Renders (message : Message) (row : Json) : List Char → Prop
  | console {stamp level payload : List Char} : '\t' ∉ stamp → '\t' ∉ level →
      stamp.head? ≠ some '{' → parsers.loads payload = .ok row →
      Renders message row
        (stamp ++ '\t' :: (level ++ '\t' :: (message.text.toList ++ '\t' :: payload)))
  | json {line : List Char} : line.head? = some '{' → message.text.toList <:+: line →
      parsers.loads line = .ok row → row.get "msg" = .ok (.string message.text) →
      Renders message row line

/-- A line that tells none of the events: it contains no event's name, or its message is another. -/
def Foreign (line : List Char) : Prop :=
  mentionsEvent line = true → readLine parsers line = .ok none

structure LogLine.Valid (line : LogLine) : Prop where
  oneLine : ∀ c ∈ line.text, LiveCampaign.isLineBreak c = false
  foreign : line.owner = none → Foreign parsers line.text
  owned : ∀ key message row, line.owner = some (key, message, row) →
    Renders parsers message row line.text ∧
      row.get "reconcileID" = .ok (.string key.reconcileID) ∧
      row.getItem "reconcileStartedAt" = .ok (.string key.startedAt)

def ownedRows (lines : List LogLine) : List (CycleKey × Message × Json) :=
  lines.filterMap LogLine.owner

section Lines

variable {parsers} {message : Message} {row : Json} {line : List Char}

theorem lookup_text (message : Message) : logEvents.lookup message.text = some message := by
  cases message <;> decide

theorem splitTab_append {part : List Char} (h : '\t' ∉ part) (n : ℕ) (rest : List Char) :
    splitTab (n + 1) (part ++ '\t' :: rest) = part :: splitTab n rest := by
  have hpart : ∀ c ∈ part, (c != '\t') = true := by
    intro c hc
    rw [bne_iff_ne]
    rintro rfl
    exact h hc
  have hdrop : (part ++ '\t' :: rest).dropWhile (· != '\t') = '\t' :: rest := by
    rw [List.dropWhile_append_of_pos hpart]
    rfl
  have htake : (part ++ '\t' :: rest).takeWhile (· != '\t') = part := by
    rw [List.takeWhile_append_of_pos hpart]
    simp
  rw [splitTab, hdrop, htake]

theorem readLine_of_renders (h : Renders parsers message row line) :
    mentionsEvent line = true ∧ readLine parsers line = .ok (some (message, row)) := by
  have hmentions : ∀ line : List Char, message.text.toList <:+: line → mentionsEvent line = true :=
    fun line hinfix => List.any_eq_true.mpr
      ⟨(message.text, message), by cases message <;> simp [logEvents], decide_eq_true hinfix⟩
  cases h with
  | @console stamp level payload hstamp hlevel hhead hloads =>
    have htext : '\t' ∉ message.text.toList := by cases message <;> decide
    refine ⟨hmentions _ ⟨stamp ++ '\t' :: (level ++ ['\t']), '\t' :: payload, by simp⟩, ?_⟩
    have hline : (stamp ++ '\t' :: (level ++ '\t' :: (message.text.toList ++
        '\t' :: payload))).head? ≠ some '{' := by
      cases stamp with
      | nil => simp
      | cons c stamp => simpa using hhead
    rw [readLine, if_neg hline, splitTab_append hstamp, splitTab_append hlevel,
      splitTab_append htext, splitTab]
    simp only [String.ofList_toList, lookup_text, hloads]
    rfl
  | json hhead hinfix hloads hmsg =>
    refine ⟨hmentions _ hinfix, ?_⟩
    rw [readLine, if_pos hhead, hloads]
    simp only [bind, Except.bind, hmsg, eventOf, hashable, pure, Except.pure, lookup_text]
    rfl

theorem stripLineEnd_concat (h : ∀ c ∈ line, LiveCampaign.isLineBreak c = false) :
    stripLineEnd (line ++ ['\n']) = line := by
  unfold stripLineEnd
  rw [List.reverse_append, List.reverse_singleton, List.singleton_append, List.dropWhile_cons]
  have hkeep : (line.reverse.dropWhile fun c => c == '\r' || c == '\n') = line.reverse := by
    cases hreverse : line.reverse with
    | nil => rfl
    | cons c rest =>
      have hbreak := h c (List.mem_reverse.mp (hreverse ▸ List.mem_cons_self))
      refine List.dropWhile_cons_of_neg ?_
      rw [Bool.or_eq_true, beq_iff_eq, beq_iff_eq]
      rintro (rfl | rfl) <;> cases hbreak
  simp [hkeep]

theorem beq_string (a b : String) : (Json.string a == Json.string b) = decide (a = b) := by
  rw [Bool.eq_iff_iff, decide_eq_true_iff]
  show LiveCampaign.Json.equals _ _ = true ↔ _
  rw [LiveCampaign.Json.equals, beq_iff_eq]

/-- A new row of a reconciliation goes to its group. -/
theorem recordRow_cycles {key : CycleKey} {found : List (CycleKey × List (Message × Json))}
    (h : ∀ rows, (key, rows) ∈ found → rows.lookup message = none) :
    recordRow (.string key.reconcileID) (.string key.startedAt) message row (found.map cycleOf) =
      .ok ((Demultiplex.add key (message, row) found).map cycleOf) := by
  induction found with
  | nil =>
    have hset : (cycleOf (key, [])).set message row = cycleOf (key, [(message, row)]) :=
      set_cycleOf rfl row
    rw [List.map_nil, recordRow, Demultiplex.add, List.map_singleton, ← hset]
    rfl
  | cons group rest ih =>
    obtain ⟨other, rows⟩ := group
    have hrest := ih fun rows hrows => h rows (List.mem_cons_of_mem _ hrows)
    rw [List.map_cons, recordRow, Demultiplex.add]
    have hkey : ((cycleOf (other, rows)).reconcileID == .string key.reconcileID &&
        (cycleOf (other, rows)).reconcileStartedAt == .string key.startedAt) =
        decide (other = key) := by
      show (Json.string _ == Json.string _ && Json.string _ == Json.string _) = _
      rw [beq_string, beq_string, ← Bool.decide_and]
      apply decide_eq_decide.mpr
      constructor
      · intro hsame
        cases other
        cases key
        simp_all
      · intro heq
        rw [heq]
        exact ⟨rfl, rfl⟩
    rw [hkey]
    by_cases heq : other = key
    · subst heq
      have hnone := h rows List.mem_cons_self
      have hget : ((cycleOf (other, rows)).get message).isSome = false := by
        rw [get_cycleOf, hnone]
        rfl
      rw [decide_eq_true rfl, if_pos rfl, hget, if_neg Bool.false_ne_true, if_pos rfl,
        set_cycleOf hnone, List.map_cons]
    · rw [decide_eq_false heq, if_neg Bool.false_ne_true, if_neg heq, hrest]
      rfl

theorem addLine_valid {line : LogLine} (hvalid : line.Valid parsers) (ignore : Bool)
    {found : List (CycleKey × List (Message × Json))}
    (hnew : ∀ key message row, line.owner = some (key, message, row) →
      ∀ rows, (key, rows) ∈ found → rows.lookup message = none) :
    addLine parsers ignore (found.map cycleOf) (line.text ++ ['\n']) =
      .ok ((match line.owner with
        | none => found
        | some (key, entry) => Demultiplex.add key entry found).map cycleOf) := by
  have hlast : (line.text ++ ['\n']).getLast? = some '\n' := List.getLast?_concat
  rw [addLine, hlast, bne_self_eq_false, Bool.and_false, if_neg Bool.false_ne_true]
  dsimp only
  rw [stripLineEnd_concat hvalid.oneLine]
  cases howner : line.owner with
  | none =>
    have hforeign := hvalid.foreign howner
    cases hmentions : mentionsEvent line.text with
    | false => simp
    | true =>
      rw [hforeign hmentions]
      rfl
  | some owner =>
    obtain ⟨key, message, row⟩ := owner
    obtain ⟨hrenders, hid, hstart⟩ := hvalid.owned key message row howner
    obtain ⟨hmentions, hread⟩ := readLine_of_renders hrenders
    rw [hmentions, hread]
    simp only [Bool.not_true, Bool.false_eq_true, if_false]
    rw [← recordRow_cycles (hnew key message row howner)]
    simp only [addRow, hid, hstart, bind, Except.bind, hashable]

def LoggedOnce (rows : List (CycleKey × Message × Json)) : Prop :=
  ∀ key, ((Demultiplex.part key rows).map Prod.fst).Nodup

theorem LoggedOnce.of_prefix {rows more : List (CycleKey × Message × Json)}
    (h : LoggedOnce (rows ++ more)) : LoggedOnce rows := by
  intro key
  have hnodup := h key
  rw [Demultiplex.part_append, List.map_append] at hnodup
  exact hnodup.of_append_left

theorem addLines_valid (ignore : Bool) {lines : List LogLine}
    (hvalid : ∀ line ∈ lines, line.Valid parsers) (honce : LoggedOnce (ownedRows lines)) :
    (lines.map fun line => line.text ++ ['\n']).foldlM (addLine parsers ignore) [] =
      .ok ((Demultiplex.groups (ownedRows lines)).map cycleOf) := by
  induction lines using List.reverseRecOn with
  | nil => rfl
  | append_singleton lines line ih =>
    have howned : ownedRows (lines ++ [line]) = ownedRows lines ++ line.owner.toList := by
      simp [ownedRows, List.filterMap_cons]
      cases line.owner <;> rfl
    rw [howned] at honce ⊢
    have ih := ih (fun line hline => hvalid line (List.mem_append_left _ hline)) honce.of_prefix
    rw [List.map_append, List.foldlM_append, ih]
    have hgrouped := Demultiplex.grouped_groups (ownedRows lines)
    have hnew : ∀ key message row, line.owner = some (key, message, row) →
        ∀ rows, (key, rows) ∈ Demultiplex.groups (ownedRows lines) →
          rows.lookup message = none := by
      intro key message row howner rows hrows
      have hnodup := honce key
      rw [howner, Option.toList_some, Demultiplex.part_concat_self, List.map_append,
        List.nodup_append] at hnodup
      rw [((hgrouped.mem_iff key rows).mp hrows).1, List.lookup_eq_none_iff]
      intro entry hentry
      simpa using fun heq : message = entry.1 =>
        hnodup.2.2 entry.1 (List.mem_map_of_mem hentry) message (by simp) heq.symm
    simp only [List.map_singleton, List.foldlM_cons, List.foldlM_nil, bind, Except.bind,
      addLine_valid (hvalid line (by simp)) ignore hnew]
    cases line.owner with
    | none =>
      rw [Option.toList_none, List.append_nil]
      rfl
    | some owner =>
      obtain ⟨key, entry⟩ := owner
      rw [Option.toList_some, Demultiplex.groups_concat]
      rfl

def Earlier (parsers : LogParsers) (cycle later : LogCycle) : Prop :=
  ∀ start start', logEpoch parsers cycle.reconcileStartedAt = .ok start →
    logEpoch parsers later.reconcileStartedAt = .ok start' → start ≤ start'

theorem sortCycles_ok {cycles : List LogCycle}
    (h : ∀ cycle ∈ cycles, ∃ start, logEpoch parsers cycle.reconcileStartedAt = .ok start) :
    ∃ sorted, sortCycles parsers cycles = .ok sorted ∧ sorted.Perm cycles ∧
      sorted.Pairwise (Earlier parsers) := by
  have hdated : ∃ dated : List (ℚ × LogCycle),
      (cycles.mapM fun cycle => do
        return (← logEpoch parsers cycle.reconcileStartedAt, cycle)) = .ok dated ∧
      dated.map Prod.snd = cycles ∧
      ∀ entry ∈ dated, logEpoch parsers entry.2.reconcileStartedAt = .ok entry.1 := by
    induction cycles with
    | nil => exact ⟨[], rfl, rfl, by simp⟩
    | cons cycle rest ih =>
      obtain ⟨⟨start, hstart⟩, hrest⟩ := List.forall_mem_cons.mp h
      obtain ⟨dated, hmap, hcycles, hstarts⟩ := ih hrest
      refine ⟨(start, cycle) :: dated, ?_, by rw [List.map_cons, hcycles], ?_⟩
      · rw [List.mapM_cons, hmap]
        simp only [bind, Except.bind, hstart, pure, Except.pure]
      · exact List.forall_mem_cons.mpr ⟨hstart, hstarts⟩
  obtain ⟨dated, hmap, hcycles, hstarts⟩ := hdated
  have hperm := List.perm_insertionSort (fun a b : ℚ × LogCycle => a.1 ≤ b.1) dated
  refine ⟨(dated.insertionSort fun a b => a.1 ≤ b.1).map Prod.snd, ?_, ?_, ?_⟩
  · rw [sortCycles, hmap]
    rfl
  · exact hcycles ▸ hperm.map Prod.snd
  · have hsorted : (dated.insertionSort fun a b => a.1 ≤ b.1).Pairwise fun a b => a.1 ≤ b.1 :=
      ComparisonSort.pairwise_insertionSort (fun _ _ _ _ => id)
        (fun _ _ _ _ hnot => (not_le.mp hnot).le) fun _ _ _ _ _ _ => le_trans
    refine List.pairwise_map.mpr (hsorted.imp_of_mem fun ha hb hle start start' h h' => ?_)
    cases (hstarts _ (hperm.subset ha)).symm.trans h
    cases (hstarts _ (hperm.subset hb)).symm.trans h'
    exact hle

theorem splitlinesKeepends_text {lines : List LogLine}
    (hlines : ∀ line ∈ lines, ∀ c ∈ line.text, LiveCampaign.isLineBreak c = false)
    {tail : List Char} (htail : ∀ c ∈ tail, LiveCampaign.isLineBreak c = false) :
    splitlinesKeepends (Framing.text LogLine.text '\n' lines ++ tail) =
      (lines.map fun line => line.text ++ ['\n']) ++ if tail = [] then [] else [tail] := by
  induction lines with
  | nil => exact splitlinesKeepends_tail htail
  | cons line rest ih =>
    obtain ⟨hline, hrest⟩ := List.forall_mem_cons.mp hlines
    rw [Framing.text_cons, List.append_assoc, List.cons_append, splitlinesKeepends_append hline,
      ih hrest]
    rfl

/-- A reader of a growing log gets one cycle for each reconciliation with a complete line, with the
rows of its complete lines, and orders the cycles by their starts. -/
theorem cyclesOfText_written {lines : List LogLine}
    (hvalid : ∀ line ∈ lines, line.Valid parsers) (honce : LoggedOnce (ownedRows lines))
    (hstarts : ∀ owner ∈ ownedRows lines,
      ∃ start, logEpoch parsers (.string owner.1.startedAt) = .ok start)
    {text : List Char} (htext : text <+: Framing.text LogLine.text '\n' lines) {ignore : Bool}
    (hmode : ignore = true ∨ text = Framing.text LogLine.text '\n' lines) :
    ∃ cycles, cyclesOfText parsers ignore text = .ok cycles ∧
      cycles.Perm ((Demultiplex.groups
        (ownedRows (lines.take (text.count '\n')))).map cycleOf) ∧
      cycles.Pairwise (Earlier parsers) := by
  have hnewline := fun line hline => newline_not_mem (hvalid line hline).oneLine
  obtain ⟨tail, hsplit, htail⟩ := Framing.prefix_text hnewline htext
  set complete := lines.take (text.count '\n') with hcomplete
  have hpre : complete <+: lines := List.take_prefix ..
  have hunbroken : ∀ c ∈ tail, LiveCampaign.isLineBreak c = false := by
    rcases htail with rfl | ⟨line, hline, hpart⟩
    · exact fun c hc => absurd hc List.not_mem_nil
    · exact fun c hc => (hvalid line hline).oneLine c (hpart.subset hc)
  have hread : ∀ line ∈ complete, line.Valid parsers :=
    fun line hline => hvalid line (hpre.subset hline)
  have honce : LoggedOnce (ownedRows complete) := by
    obtain ⟨more, hmore⟩ := hpre
    rw [← hmore, ownedRows, List.filterMap_append] at honce
    exact honce.of_prefix
  have hignore : tail ≠ [] → ignore = true := by
    intro hempty
    refine hmode.resolve_right fun hwhole => hempty ?_
    have hall : complete = lines := by
      rw [hcomplete, hwhole, Framing.count_text hnewline]
      exact List.take_length
    rwa [hall, hwhole, List.self_eq_append_right] at hsplit
  have hfold : (splitlinesKeepends text).foldlM (addLine parsers ignore) [] =
      .ok ((Demultiplex.groups (ownedRows complete)).map cycleOf) := by
    rw [hsplit, splitlinesKeepends_text (fun line hline => (hread line hline).oneLine) hunbroken,
      List.foldlM_append, addLines_valid ignore hread honce]
    split_ifs with hempty
    · rfl
    · have hopen : (tail.getLast? != some '\n') = true := by
        rw [bne_iff_ne]
        exact fun hlast => newline_not_mem hunbroken (List.mem_of_getLast? hlast)
      simp only [bind, Except.bind, List.foldlM_cons, List.foldlM_nil, addLine, hopen,
        hignore hempty, Bool.and_self, if_true]
      rfl
  have hgrouped := Demultiplex.grouped_groups (ownedRows complete)
  have hdated : ∀ cycle ∈ (Demultiplex.groups (ownedRows complete)).map cycleOf,
      ∃ start, logEpoch parsers cycle.reconcileStartedAt = .ok start := by
    intro cycle hcycle
    obtain ⟨⟨key, rows⟩, hgroup, rfl⟩ := List.mem_map.mp hcycle
    obtain ⟨rfl, hne⟩ := (hgrouped.mem_iff key rows).mp hgroup
    obtain ⟨entry, hentry⟩ := List.exists_mem_of_ne_nil _ hne
    exact hstarts _ ((hpre.filterMap _).subset (Demultiplex.mem_part.mp hentry))
  obtain ⟨cycles, hsort, hperm, hordered⟩ := sortCycles_ok hdated
  refine ⟨cycles, ?_, hperm, hordered⟩
  rw [cyclesOfText, hfold]
  exact hsort

end Lines

end Autoscaler.Analysis
