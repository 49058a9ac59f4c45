import Conveyor.Pipeline.Builder
import Conveyor.Main
import Conveyor.Proofs.ManifestExactness
import Conveyor.Proofs.ScheduleIndependence
import Conveyor.Proofs.ReportedJobs
import Conveyor.Proofs.JobNames
import Conveyor.Proofs.GlobMatching
import Conveyor.Proofs.TemplateSubstitution
import Conveyor.Proofs.InputExactness
import Conveyor.Proofs.Timeouts
import Conveyor.Proofs.ValidationAnswers
import Conveyor.Proofs.DocumentSpelling
import Conveyor.Proofs.InferredDownloads
import Conveyor.Proofs.DispatchOrder
import Conveyor.Proofs.NeedsIndependence
import Conveyor.Proofs.ReferenceText
import Conveyor.Proofs.AxisRewriting
import Conveyor.Proofs.EnvironmentLayers
