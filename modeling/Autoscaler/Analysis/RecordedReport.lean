import Autoscaler.Analysis.ReplayAnalysis
import Autoscaler.Library.Promises

/-! The analysis of a run of the controller, in a world where nothing fails. -/
namespace Autoscaler.RecordedRun

open Controller Effects MetricsProvider Raising ReplayAnalysis
open Analysis hiding Field

section Obliging

variable {lib : ReplayLibrary ℚ} {Input : Type} {decoder : ReplayDecoder Input ℚ}
  {files : RecordedFiles} {recording : ReplayInput ℚ} {report : Report} {result : ReplayReport ℚ}

end Obliging

end Autoscaler.RecordedRun
