import PatternCovering.Cover.Reader
import PatternCovering.CuttingStock.Check
import PatternCovering.CuttingStock.Report
import PatternCovering.Datum.Fingerprint
import PatternCovering.ExactSolver
import PatternCovering.Generation.Reader
import PatternCovering.Generation.Report
import PatternCovering.Knapsack.Reader
import PatternCovering.Label.Reader
import PatternCovering.Label.Report
import PatternCovering.Logger
import PatternCovering.Offer.Report
import PatternCovering.PathSearch.Reader
import PatternCovering.Problem.Reader
import PatternCovering.Problem.Report
import PatternCovering.Proofs.Column.Indexed
import PatternCovering.Proofs.Cover.Alignment
import PatternCovering.Proofs.Cover.Books
import PatternCovering.Proofs.Cover.Obliging
import PatternCovering.Proofs.Cover.Restoring
import PatternCovering.Proofs.CuttingStock.Certificate
import PatternCovering.Proofs.CuttingStock.Convergence
import PatternCovering.Proofs.CuttingStock.LowerBound
import PatternCovering.Proofs.CuttingStock.Supply
import PatternCovering.Proofs.Double
import PatternCovering.Proofs.Double.Keys
import PatternCovering.Proofs.Generation.Failing
import PatternCovering.Proofs.Generation.Objectives
import PatternCovering.Proofs.Generation.Paths
import PatternCovering.Proofs.Generation.Trace
import PatternCovering.Proofs.Knapsack.Best
import PatternCovering.Proofs.Knapsack.InPlace
import PatternCovering.Proofs.Label.Front
import PatternCovering.Proofs.Model.Entries
import PatternCovering.Proofs.Network.Calls
import PatternCovering.Proofs.Network.Reading
import PatternCovering.Proofs.PathSearch.Consuming
import PatternCovering.Proofs.PathSearch.Cycles
import PatternCovering.Proofs.PathSearch.Enumeration
import PatternCovering.Proofs.PathSearch.Heads
import PatternCovering.Proofs.PathSearch.Labels
import PatternCovering.Proofs.PathSearch.Limit
import PatternCovering.Proofs.PathSearch.Lookups
import PatternCovering.Proofs.PathSearch.Sweeps
import PatternCovering.Proofs.Problem.Guards
import PatternCovering.Proofs.Problem.Standing
import PatternCovering.Proofs.Settings.Obtained
import PatternCovering.Proofs.Settings.Saving
import PatternCovering.Recorder.Reader
import PatternCovering.Rehearsal.Reader
import PatternCovering.Settings.File
import PatternCovering.Settings.Report
import PatternCovering.Version
