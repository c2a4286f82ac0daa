import Sparkboard.Json.Canonical
import Sparkboard.Main
import Sparkboard.Proofs.Activity.Recent
import Sparkboard.Proofs.Chart.PointList
import Sparkboard.Proofs.Chart.Scaling
import Sparkboard.Proofs.Command.Render
import Sparkboard.Proofs.Config.Overrides
import Sparkboard.Proofs.Dashboard.Animation
import Sparkboard.Proofs.Dashboard.Atomicity
import Sparkboard.Proofs.Dashboard.Batch
import Sparkboard.Proofs.Dashboard.Horizon
import Sparkboard.Proofs.Dashboard.Idle
import Sparkboard.Proofs.Dashboard.LoaderMachine
import Sparkboard.Proofs.Dashboard.Noninterference
import Sparkboard.Proofs.Dashboard.Numbering
import Sparkboard.Proofs.Dashboard.Panels
import Sparkboard.Proofs.Dashboard.Plot
import Sparkboard.Proofs.Dashboard.Punctuality
import Sparkboard.Proofs.Dashboard.Sessions
import Sparkboard.Proofs.Dashboard.Slicing
import Sparkboard.Proofs.Dashboard.Staleness
import Sparkboard.Proofs.Files.ChartData
import Sparkboard.Proofs.Flags.PairSet
import Sparkboard.Proofs.Json.RoundTrip
import Sparkboard.Proofs.Svg.Depiction
import Sparkboard.Proofs.Timeline.Priority
