import ExposureControl.Governor.Command
import ExposureControl.Json.Reader
import ExposureControl.Main
import ExposureControl.Proofs.CanaryBudget
import ExposureControl.Proofs.LedgerRecount
import ExposureControl.Proofs.RewardCredit
import ExposureControl.Proofs.Selection
import ExposureControl.Proofs.DriftLadder
import ExposureControl.Proofs.NeverStops
import ExposureControl.Proofs.CanaryShare
import ExposureControl.Proofs.PresetBlock
import ExposureControl.Proofs.PositionLife
import ExposureControl.Proofs.FillMatching
import ExposureControl.Proofs.Bookings
import ExposureControl.Proofs.Refusals
import ExposureControl.Proofs.Provisioning
import ExposureControl.Proofs.SymbolIsolation
import ExposureControl.Proofs.ClosedTrades
import ExposureControl.Proofs.PruneTransparency
import ExposureControl.Proofs.Housekeeping
import ExposureControl.Proofs.RecentRecords
import ExposureControl.Proofs.MalformedCalls
import ExposureControl.Proofs.EvaluationGate
import ExposureControl.Proofs.SymbolSpelling
import ExposureControl.Proofs.SampleEviction
import ExposureControl.Proofs.SavedSettings
import ExposureControl.Proofs.SessionReport
import ExposureControl.Proofs.BlockedArms
import ExposureControl.Proofs.BestArm
import ExposureControl.Proofs.RestoredArms
import ExposureControl.Proofs.PrunedLog
import ExposureControl.Proofs.DrawdownShare
import ExposureControl.Proofs.TallyBounds
import ExposureControl.Proofs.NumberedPulls
import ExposureControl.Proofs.IdleTime
import ExposureControl.Proofs.CostSummary
import ExposureControl.Proofs.AlertText
