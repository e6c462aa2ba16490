import Autoscaler.Controller.ApiServer
import Autoscaler.Controller.MetricsSafety

/-! What a status update does to the API server: it reads the live policy, and replaces the status
of exactly the version it read or leaves everything as it is. -/
namespace Autoscaler.Controller

open Effects MetricsProvider

namespace PredictiveHPAReconciler

variable {K : Type}

abbrev APIEvent (K : Type) := Event World (Op K) Op.Result

theorem samePolicy_iff {expected latest : PredictiveHPA} :
    samePolicy expected latest = true ↔ latest.metadata.uid = expected.metadata.uid ∧
      latest.metadata.generation = expected.metadata.generation ∧
      latest.metadata.notDeleting = true := by
  simp only [samePolicy, Bool.and_eq_true, beq_iff_eq, and_assoc]

/-- The event changed nothing, or gave the live object of `key` a status that `Q` allows. -/
def OnlyStatus (Q : PredictiveHPA → PredictiveHPAStatus → Prop) (key : NamespacedName)
    (e : APIEvent K) : Prop :=
  e.after = e.before ∨ ∃ live status, e.before.phpas key = some live ∧ live.metadata.key = key ∧
    Q live status ∧ e.after = e.before.putPHPA (withStatus live status e.before.revision)

/-- After some event the live object was `expected` with a status that `Q` allows, and from then on
only the clock was read. Without an `APIReader` it may instead be what the client's cache showed. -/
def Published (r : PredictiveHPAReconciler K) (expected : PredictiveHPA)
    (Q : PredictiveHPAStatus → Prop) (events : List (APIEvent K)) : Prop :=
  ∃ first e rest latest, events = first ++ e :: rest ∧ (∀ e' ∈ rest, e'.op = .wallClock) ∧
    samePolicy expected latest = true ∧ Q latest.status ∧
    (e.after.phpas expected.metadata.key = some latest ∨ r.hasAPIReader = false ∧
      ∃ w, e = ⟨w, .getPHPA .cache expected.metadata.key, .ok latest, w⟩)

theorem Published.cons {r : PredictiveHPAReconciler K} {expected : PredictiveHPA}
    {Q : PredictiveHPAStatus → Prop} {events : List (APIEvent K)}
    (h : Published r expected Q events) (e : APIEvent K) :
    Published r expected Q (e :: events) := by
  obtain ⟨first, e', rest, latest, rfl, hrest⟩ := h
  exact ⟨e :: first, e', rest, latest, rfl, hrest⟩

theorem Published.imp {r : PredictiveHPAReconciler K} {expected : PredictiveHPA}
    {Q Q' : PredictiveHPAStatus → Prop} {events : List (APIEvent K)}
    (h : Published r expected Q events) (himp : ∀ status, Q status → Q' status) :
    Published r expected Q' events := by
  obtain ⟨first, e, rest, latest, heq, hrest, hsame, hQ, hlive⟩ := h
  exact ⟨first, e, rest, latest, heq, hrest, hsame, himp _ hQ, hlive⟩

section Operations

variable (r : PredictiveHPAReconciler K)

def KeepsScale (op : Op K) : Prop := ∀ target body, op ≠ .updateScale target body

theorem freshPHPA_keepsScale (expected : PredictiveHPA) :
    (r.freshPHPA expected).Ensures KeepsScale fun _ => True := by
  unfold freshPHPA
  refine (Prog.ensures_perform_bind _ _).mpr ⟨nofun, fun found => ?_⟩
  cases found with
  | error => trivial
  | ok latest =>
    dsimp only
    split_ifs <;> trivial

theorem setStatusCondition_ensures (status : PredictiveHPAStatus) (condition : Condition) :
    (r.setStatusCondition status condition).Ensures (fun op => op = .wallClock) fun status' =>
      ∃ now, status' = { status with
        conditions := r.conditions.setStatusCondition status.conditions condition now } :=
  ⟨rfl, fun now => ⟨now, rfl⟩⟩

/-- What holds of the fresh read, of clock readings and of the patch holds of a status update. -/
theorem patchStatus_ensures {P : Op K → Prop} (expected : PredictiveHPA) (stamped : Bool)
    {mutate : PredictiveHPAStatus → Program K PredictiveHPAStatus}
    {Q : PredictiveHPAStatus → PredictiveHPAStatus → Prop}
    (hread : P (.getPHPA r.reader expected.metadata.key)) (hclock : P .wallClock)
    (hpatch : ∀ latest status, Q latest.status status →
      P (.patchStatus latest { latest with status := status }))
    (hmutate : ∀ status, (mutate status).Ensures (fun op => op = .wallClock) (Q status)) :
    (r.patchStatus expected stamped mutate).Ensures P fun _ => True := by
  unfold patchStatus freshPHPA
  refine Prog.ensures_bind (R := fun _ => True) ⟨hread, fun found => ?_⟩ fun fresh _ => ?_
  · cases found with
    | error => trivial
    | ok latest =>
      show Prog.Ensures P _ (if _ then _ else _)
      split_ifs <;> trivial
  · cases fresh with
    | error => trivial
    | ok latest =>
      refine Prog.ensures_bind ((hmutate latest.status).imp ?_) fun status hstatus => ?_
      · rintro _ rfl
        exact hclock
      · split_ifs
        · trivial
        · refine ⟨hpatch latest status hstatus, fun patched => ?_⟩
          cases patched <;> trivial

theorem patchStatus_keepsScale (expected : PredictiveHPA) (stamped : Bool)
    {mutate : PredictiveHPAStatus → Program K PredictiveHPAStatus}
    (hmutate : ∀ status, (mutate status).Ensures (fun op => op = .wallClock) fun _ => True) :
    (r.patchStatus expected stamped mutate).Ensures KeepsScale fun _ => True :=
  r.patchStatus_ensures expected stamped nofun nofun (fun _ _ _ => nofun) hmutate

theorem unavailableStatus_readsClock (phpa : PredictiveHPA) (err : Err)
    (status : PredictiveHPAStatus) :
    (r.unavailableStatus phpa err status).Ensures (fun op => op = .wallClock) fun _ => True :=
  ⟨rfl, fun _ => ⟨rfl, fun _ => trivial⟩⟩

theorem metricsUnavailable_keepsScale (phpa : PredictiveHPA) (err : Err) (interval : ℤ) :
    (r.metricsUnavailable phpa err interval).Ensures KeepsScale fun _ => True := by
  have hpatch := r.patchStatus_keepsScale phpa false (r.unavailableStatus_readsClock phpa err)
  refine Prog.ensures_bind hpatch fun patched _ => ?_
  cases patched with
  | error => trivial
  | ok =>
    dsimp only
    split_ifs <;> trivial

end Operations

variable [Field K] [LinearOrder K] [FloorRing K] {r : PredictiveHPAReconciler K} {w w' : World}
  {events : List (APIEvent K)}

/-- A fresh read is one read, returned when it is still the expected policy. -/
theorem freshPHPA_exec {expected : PredictiveHPA} {result : Option (Except Err PredictiveHPA)}
    (h : Exec (cluster K) w (r.freshPHPA expected) events result w') :
    (events = [] ∧ result = none) ∨
      ∃ w₁ found, events = [⟨w₁, .getPHPA r.reader expected.metadata.key, found, w₁⟩] ∧
        (∀ latest, result = some (.ok latest) → found = .ok latest ∧
          samePolicy expected latest = true) ∧
        ∀ err, result = some (.error err) → found = .error err ∨
          err = policyChanged expected.metadata.name := by
  unfold freshPHPA at h
  rcases exec_perform h with hstop | ⟨w₁, found, w₂, rest, -, hread, rfl, hrest⟩
  · exact .inl hstop
  · obtain rfl : w₂ = w₁ := hread.1
    refine .inr ⟨w₂, found, ?_⟩
    cases found with
    | error err =>
      obtain ⟨rfl, hresult⟩ := exec_pure hrest
      refine ⟨rfl, fun latest hlatest => (by cases hresult _ hlatest), fun err' herr => ?_⟩
      cases hresult _ herr
      exact .inl rfl
    | ok found =>
      dsimp only at hrest
      by_cases hsame : samePolicy expected found = true
      · rw [if_pos hsame] at hrest
        obtain ⟨rfl, hresult⟩ := exec_pure hrest
        refine ⟨rfl, fun latest hlatest => ?_, fun err herr => by cases hresult _ herr⟩
        cases hresult _ hlatest
        exact ⟨rfl, hsame⟩
      · rw [if_neg hsame] at hrest
        obtain ⟨rfl, hresult⟩ := exec_pure hrest
        refine ⟨rfl, fun latest hlatest => (by cases hresult _ hlatest), fun err herr => ?_⟩
        cases hresult _ herr
        exact .inr rfl

/-- A fresh read shows the live object, or what the cache has when there is no `APIReader`. -/
theorem shown_of_getPHPA {key : NamespacedName} {latest : PredictiveHPA}
    (h : w.Performs (Op.getPHPA r.reader key : Op K) (.ok latest) w) :
    w.phpas key = some latest ∨ r.hasAPIReader = false ∧
      ∃ w₁, (⟨w, .getPHPA r.reader key, .ok latest, w⟩ : APIEvent K) =
        ⟨w₁, .getPHPA .cache key, .ok latest, w₁⟩ := by
  unfold PredictiveHPAReconciler.reader at h ⊢
  cases hr : r.hasAPIReader
  · exact .inr ⟨rfl, w, rfl⟩
  · rw [hr] at h
    exact .inl h.2

theorem unchanged_of_wallClock {e : APIEvent K}
    (h : (cluster K).perform e.before e.op e.result e.after) (hop : e.op = .wallClock) :
    e.after = e.before := by
  obtain ⟨before, op, result, after⟩ := e
  dsimp only at hop
  subst hop
  exact h

def Answers {α : Type} (p : Program K α) (events : List (APIEvent K)) (a : α) : Prop :=
  ∃ w w', Exec (cluster K) w p events (some a) w'

theorem Answers.ensures {α : Type} {p : Program K α} {a : α} (h : Answers p events a)
    {P : Op K → Prop} {Q : α → Prop} (hp : p.Ensures P Q) : Q a := by
  obtain ⟨_, _, h⟩ := h
  exact (h.ensures hp).2 a rfl

section PatchStatus

variable {expected : PredictiveHPA} {stamped : Bool}
  {mutate : PredictiveHPAStatus → Program K PredictiveHPAStatus}
  {Q : PredictiveHPAStatus → PredictiveHPAStatus → Prop} {result : Option (Except Err Unit)}

/-- The calls after the fresh read of `latest`: clock readings only, or clock readings and the
patch of `latest` to its mutated status. -/
def PatchesLatest (stamped : Bool)
    (mutate : PredictiveHPAStatus → Program K PredictiveHPAStatus) (latest : PredictiveHPA)
    (events : List (APIEvent K)) (result : Option (Except Err Unit)) : Prop :=
  ((∀ e ∈ events, e.op = .wallClock) ∧ (∀ err, result ≠ some (.error err)) ∧
    (result = some (.ok ()) →
      stamped = false ∧ Answers (mutate latest.status) events latest.status)) ∨
  ∃ clock status w₁ answer w₂,
    events = clock ++ [⟨w₁, .patchStatus latest { latest with status := status }, answer, w₂⟩] ∧
    (∀ e ∈ clock, e.op = .wallClock) ∧ Answers (mutate latest.status) clock status ∧
    (result = some (.ok ()) → answer = .ok ()) ∧
    ∀ err, result = some (.error err) → ∃ err', answer = .error err' ∧
      err = err'.annotate "patch PredictiveHPA status"

theorem patchLatest_calls {latest : PredictiveHPA}
    (hmutate : (mutate latest.status).Ensures (fun op => op = .wallClock) fun _ => True)
    (h : Exec (cluster K) w (do
      let status ← mutate latest.status
      if stamped = false ∧ latest.status = status then return .ok ()
      else
        let patched : Except Err Unit ← Prog.perform
          (Op.patchStatus latest { latest with status := status })
        match patched with
        | .error err => return .error (err.annotate "patch PredictiveHPA status")
        | .ok () => return .ok ()) events result w') :
    PatchesLatest stamped mutate latest events result := by
  rcases exec_bind h with ⟨status, w₁, clock, second, hfirst, hsecond, rfl⟩ | ⟨hfirst, rfl⟩
  · have hclock := (hfirst.ensures hmutate).1
    by_cases hsame : stamped = false ∧ latest.status = status
    · rw [if_pos hsame] at hsecond
      obtain ⟨rfl, hresult⟩ := exec_pure hsecond
      rw [List.append_nil]
      obtain ⟨hstamped, rfl⟩ := hsame
      exact .inl ⟨hclock, fun err herr => (by cases hresult _ herr),
        fun _ => ⟨hstamped, w, w₁, hfirst⟩⟩
    · rw [if_neg hsame] at hsecond
      rcases exec_perform hsecond with ⟨rfl, rfl⟩ | ⟨w₂, answer, w₃, rest, -, -, rfl, hrest⟩
      · rw [List.append_nil]
        exact .inl ⟨hclock, nofun, nofun⟩
      · have hnil : rest = [] := by cases answer <;> exact (exec_pure hrest).1
        subst hnil
        refine .inr ⟨clock, status, w₂, answer, w₃, rfl, hclock, ⟨w, w₁, hfirst⟩, ?_⟩
        cases answer with
        | error err =>
          refine ⟨fun hok => (by cases (exec_pure hrest).2 _ hok), fun err' herr => ?_⟩
          cases (exec_pure hrest).2 _ herr
          exact ⟨err, rfl, rfl⟩
        | ok => exact ⟨fun _ => rfl, fun err herr => by cases (exec_pure hrest).2 _ herr⟩
  · exact .inl ⟨(hfirst.ensures hmutate).1, nofun, nofun⟩

/-- The calls of a status update: a fresh read, and what follows when it shows the expected
policy. -/
theorem patchStatus_calls
    (hmutate : ∀ status, (mutate status).Ensures (fun op => op = .wallClock) fun _ => True)
    (h : Exec (cluster K) w (r.patchStatus expected stamped mutate) events result w') :
    (events = [] ∧ result = none) ∨
    ∃ w₁ found rest, events = ⟨w₁, .getPHPA r.reader expected.metadata.key, found, w₁⟩ :: rest ∧
      ((rest = [] ∧ result ≠ some (.ok ()) ∧ ∀ err, result = some (.error err) →
          found = .error err ∨ err = policyChanged expected.metadata.name) ∨
        ∃ latest, found = .ok latest ∧ samePolicy expected latest = true ∧
          PatchesLatest stamped mutate latest rest result) := by
  unfold patchStatus at h
  rcases exec_bind h with ⟨fresh, w₁, first, second, hfirst, hsecond, rfl⟩ | ⟨hfirst, rfl⟩
  · rcases freshPHPA_exec hfirst with ⟨-, hstop⟩ | ⟨w₂, found, rfl, hfresh⟩
    · cases hstop
    · refine .inr ⟨w₂, found, second, rfl, ?_⟩
      cases fresh with
      | error err =>
        obtain ⟨rfl, hresult⟩ := exec_pure hsecond
        refine .inl ⟨rfl, fun hok => (by cases hresult _ hok), fun err' herr => ?_⟩
        cases hresult _ herr
        exact hfresh.2 err rfl
      | ok latest =>
        obtain ⟨rfl, hsame⟩ := hfresh.1 latest rfl
        exact .inr ⟨latest, rfl, hsame, patchLatest_calls (hmutate _) hsecond⟩
  · rcases freshPHPA_exec hfirst with hstop | ⟨w₂, found, rfl, -⟩
    · exact .inl ⟨hstop.1, rfl⟩
    · exact .inr ⟨w₂, found, [], rfl, .inl ⟨rfl, nofun, nofun⟩⟩

/-- An accepted patch of a version that was read replaces exactly that version. -/
theorem patch_replaces (hw : w.WellFormed)
    (h : Exec (cluster K) w (r.patchStatus expected stamped mutate) events result w')
    {w₁ w₂ w₃ : World} {latest : PredictiveHPA} {status : PredictiveHPAStatus}
    {answer : Except Err Unit} {clock : List (APIEvent K)}
    (hevents : events = ⟨w₁, .getPHPA r.reader expected.metadata.key, .ok latest, w₁⟩ ::
      (clock ++ [⟨w₂, .patchStatus latest { latest with status := status }, answer, w₃⟩])) :
    (w₃ = w₂ ∧ ∃ err, answer = .error err) ∨
      w₂.phpas expected.metadata.key = some latest ∧ latest.metadata.key = expected.metadata.key ∧
        w₃ = w₂.putPHPA (withStatus latest status w₂.revision) := by
  subst hevents
  have hwf := (hw.exec h).1
  obtain ⟨hmem, hkey⟩ := (hwf _ (List.mem_cons_self ..)).1.mem_of_getPHPA
    (h.performed _ (List.mem_cons_self ..))
  have hgrows := (List.pairwise_cons.mp (World.grows_exec h).2.1).1 _
    (List.mem_append_right _ (List.mem_singleton_self _))
  rcases h.performed _ (List.mem_cons_of_mem _ (List.mem_append_right _
    (List.mem_singleton_self _))) with hpatch | hrejected
  · obtain ⟨hlive, hput⟩ := hpatch.replaced (hwf _ (List.mem_cons_of_mem _
      (List.mem_append_right _ (List.mem_singleton_self _)))).1 (hgrows.1 hmem)
    exact .inr ⟨hkey ▸ hlive, hkey, hput⟩
  · exact .inl hrejected

/-- A status update changes at most the status of the live policy. -/
theorem patchStatus_exec (hw : w.WellFormed)
    (hmutate : ∀ status, (mutate status).Ensures (fun op => op = .wallClock) (Q status))
    (h : Exec (cluster K) w (r.patchStatus expected stamped mutate) events result w') :
    (∀ e ∈ events, OnlyStatus (fun live => Q live.status) expected.metadata.key e) ∧
    (result = some (.ok ()) → Published r expected (fun status => ∃ s, Q s status) events) := by
  have hreads : ∀ e ∈ events, e.op = .wallClock → e.after = e.before := fun e he hop =>
    unchanged_of_wallClock (h.performed e he) hop
  have hclocked := fun status => (hmutate status).weaken
  rcases patchStatus_calls hclocked h with ⟨rfl, rfl⟩ | ⟨w₁, found, rest, rfl, hrest⟩
  · exact ⟨by simp, nofun⟩
  · have hfound := h.performed _ (List.mem_cons_self ..)
    rcases hrest with ⟨rfl, hfails, -⟩ | ⟨latest, rfl, hsame, ⟨hclock, -, hdone⟩ |
      ⟨clock, status, w₂, answer, w₃, rfl, hclock, hstatus, hok, -⟩⟩
    · exact ⟨List.forall_mem_singleton.mpr (.inl rfl), fun hok => absurd hok hfails⟩
    · refine ⟨List.forall_mem_cons.mpr ⟨.inl rfl, fun e he =>
        .inl (hreads e (List.mem_cons_of_mem _ he) (hclock e he))⟩, fun hok => ?_⟩
      exact ⟨[], _, rest, latest, rfl, hclock, hsame,
        ⟨_, (hdone hok).2.ensures (hmutate latest.status)⟩, shown_of_getPHPA hfound⟩
    · have hQ := hstatus.ensures (hmutate latest.status)
      have hkeeps : ∀ e ∈ clock, OnlyStatus (fun live => Q live.status) expected.metadata.key e :=
        fun e he => .inl (hreads e (List.mem_cons_of_mem _ (List.mem_append_left _ he))
          (hclock e he))
      rcases patch_replaces hw h rfl with ⟨rfl, err, rfl⟩ | ⟨hlive, hkey, hput⟩
      · refine ⟨List.forall_mem_cons.mpr ⟨.inl rfl, List.forall_mem_append.mpr ⟨hkeeps,
          List.forall_mem_singleton.mpr (.inl rfl)⟩⟩, fun hresult => ?_⟩
        cases hok hresult
      · refine ⟨List.forall_mem_cons.mpr ⟨.inl rfl, List.forall_mem_append.mpr ⟨hkeeps,
          List.forall_mem_singleton.mpr (.inr ⟨latest, status, hlive, hkey, hQ, hput⟩)⟩⟩,
          fun _ => ?_⟩
        have hwritten : w₃.phpas expected.metadata.key =
            some (withStatus latest status w₂.revision) := by
          rw [hput, ← hkey]
          exact World.putPHPA_self ..
        exact ⟨_ :: clock, _, [], withStatus latest status w₂.revision, rfl, by simp, hsame,
          ⟨_, hQ⟩, .inl hwritten⟩

end PatchStatus

end PredictiveHPAReconciler

end Autoscaler.Controller
