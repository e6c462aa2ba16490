import Autoscaler.Controller.ReplayReport

/-! The command of `cmd/replay`: one recording from a file or the standard input, and its report
on the standard output. -/
namespace Autoscaler.ReplayCommand

open Controller

/-- What `flags.Parse` makes of the arguments, with what it prints about them. -/
inductive Flags where
  | help (printed : String)
  | rejected (printed : String)
  | parsed (inputPath : String) (positional : ℕ)

/-- The standard input, the files that can be opened, and what printing the report returns. -/
structure Surroundings (Input : Type) where
  stdin : Input
  openFile : String → Except String Input
  encodeErr : Option String

structure Outcome (K : Type) where
  exitCode : ℤ
  report : Option (ReplayReport K)
  stderr : String

variable {K Input : Type} [Field K] [LinearOrder K] [FloorRing K]

/-- `run`; `none` is a panic. -/
def run (lib : ReplayLibrary K) (decoder : ReplayDecoder Input K) (flags : Flags)
    (around : Surroundings Input) : Option (Outcome K) :=
  match flags with
  | .help printed => some ⟨0, none, printed⟩
  | .rejected printed => some ⟨2, none, printed⟩
  | .parsed inputPath positional =>
    if positional ≠ 0 then some ⟨2, none, "replay accepts -input FILE or JSON on stdin\n"⟩
    else
      match if inputPath = "-" then .ok around.stdin else around.openFile inputPath with
      | .error err => some ⟨2, none, err ++ "\n"⟩
      | .ok input =>
        match decoder.replayDecisions lib input with
        | none => none
        | some (.error err) =>
          some ⟨if err.invalidInput then 2 else 1, none, err.message ++ "\n"⟩
        | some (.ok report) =>
          match around.encodeErr with
          | some err => some ⟨1, none, err ++ "\n"⟩
          | none => some ⟨0, some report, ""⟩

/-- A recording on the standard input that leads to a report was replayed to that report. -/
theorem run_report {lib : ReplayLibrary K} {decoder : ReplayDecoder Input K}
    {around : Surroundings Input} {outcome : Outcome K} {report : ReplayReport K}
    (h : run lib decoder (.parsed "-" 0) around = some outcome)
    (hreport : outcome.report = some report) :
    decoder.replayDecisions lib around.stdin = some (.ok report) := by
  unfold run at h
  dsimp only at h
  rw [if_neg (by simp), if_pos rfl] at h
  dsimp only at h
  cases hreplay : decoder.replayDecisions lib around.stdin with
  | none => simp [hreplay] at h
  | some result =>
    rw [hreplay] at h
    cases result with
    | error err =>
      cases h
      cases hreport
    | ok replayed =>
      cases hencode : around.encodeErr with
      | some err =>
        rw [hencode] at h
        cases h
        cases hreport
      | none =>
        rw [hencode] at h
        cases h
        cases hreport
        rfl

end Autoscaler.ReplayCommand
