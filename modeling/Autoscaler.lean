import Autoscaler.Analysis.ControlledMeasurement
import Autoscaler.Analysis.ControllerCycles
import Autoscaler.Analysis.DecisionReplay
import Autoscaler.Analysis.LaunchAnchor
import Autoscaler.Analysis.ObserveCadence
import Autoscaler.Analysis.PrepareReplay
import Autoscaler.Analysis.RawVisibility
import Autoscaler.Analysis.ReadyInterval
import Autoscaler.Analysis.ReconciliationLog
import Autoscaler.Analysis.RecordedPasses
import Autoscaler.Analysis.RecordedRun
import Autoscaler.Analysis.RecordedReport
import Autoscaler.Analysis.ReplicaTime
import Autoscaler.Analysis.StreamCheck
import Autoscaler.Analysis.WriteChain
import Autoscaler.CadenceCommands
import Autoscaler.CadenceLaunch
import Autoscaler.CadenceRelease
import Autoscaler.CadenceSupervisor
import Autoscaler.Controller.AcceptableHistory
import Autoscaler.Controller.ClosedLoop
import Autoscaler.Controller.ColdStart
import Autoscaler.Controller.DecisionPipeline
import Autoscaler.Controller.DecisionStability
import Autoscaler.Controller.HistoryBuckets
import Autoscaler.Controller.HybridDominance
import Autoscaler.Controller.LastScaleTime
import Autoscaler.Controller.LeastReplicas
import Autoscaler.Controller.MetricsUnavailable
import Autoscaler.Controller.Polling
import Autoscaler.Controller.RecommendationIsolation
import Autoscaler.Controller.StatusPublication
import Autoscaler.Library.Histories
import Autoscaler.Library.Trails
import Autoscaler.LiveCampaign
import Autoscaler.MetricsProvider.Attribution
import Autoscaler.MetricsProvider.Readiness
import Autoscaler.MetricsProvider.RosterOwnership
import Autoscaler.MetricsProvider.SerialObservations
