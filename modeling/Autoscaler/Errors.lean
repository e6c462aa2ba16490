import Mathlib.Data.List.Basic

/-! Error values: the sentinels that `errors.Is` finds in the chain, and the message. -/
namespace Autoscaler

/-- The sentinel errors of the provider, the predictor and the configuration check, and the
two API status reasons the controller looks at. -/
inductive Sentinel where
  | noData
  | staleData
  | invalidData
  | incompleteData
  | targetChanged
  | insufficientData
  | invalidAlpha
  | invalidInterval
  | invalidHorizon
  | invalidConfiguration
  | notFound
  | conflict
  deriving DecidableEq, Repr

def Sentinel.text : Sentinel → String
  | .noData => "metricsprovider: no data returned"
  | .staleData => "metricsprovider: stale source data"
  | .invalidData => "metricsprovider: invalid data"
  | .incompleteData => "metricsprovider: incomplete data"
  | .targetChanged => "metricsprovider: target changed during observation"
  | .insufficientData => "predictor: insufficient data"
  | .invalidAlpha => "predictor: alpha must be in (0, 1)"
  | .invalidInterval => "predictor: non-positive sample interval"
  | .invalidHorizon => "predictor: horizon must not be negative"
  | .invalidConfiguration => "invalid PredictiveHPA configuration"
  | .notFound => "NotFound"
  | .conflict => "Conflict"

structure Err where
  wraps : List Sentinel
  message : String
  deriving DecidableEq, Repr

namespace Err

/-- `errors.Is`. -/
def is (e : Err) (s : Sentinel) : Bool := e.wraps.contains s

def ofSentinel (s : Sentinel) : Err := ⟨[s], s.text⟩

/-- `fmt.Errorf("%w: detail", sentinel)`. -/
def wrap (s : Sentinel) (detail : String) : Err := ⟨[s], s.text ++ ": " ++ detail⟩

/-- `fmt.Errorf("context: %w", err)`. -/
def annotate (context : String) (e : Err) : Err := ⟨e.wraps, context ++ ": " ++ e.message⟩

/-- `errors.Join`. -/
def join (e e' : Err) : Err := ⟨e.wraps ++ e'.wraps, e.message ++ "\n" ++ e'.message⟩

end Err

namespace MetricsProvider

/-- Whether a failed observation discards the history collected so far. -/
def invalidatesObservationHistory : Option Err → Bool
  | none => false
  | some e => !e.is .incompleteData && !e.is .noData && !e.is .targetChanged

end MetricsProvider

end Autoscaler
