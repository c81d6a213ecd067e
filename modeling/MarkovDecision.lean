import MarkovDecision.Chain
import MarkovDecision.Chart.Convergence
import MarkovDecision.Chart.Estimates
import MarkovDecision.Chart.Figure
import MarkovDecision.Chart.Script
import MarkovDecision.CrossCheck
import MarkovDecision.Decimal.Binary
import MarkovDecision.Decimal.Layout
import MarkovDecision.Decimal.Places
import MarkovDecision.Decimal.Shortest
import MarkovDecision.Document.Datum
import MarkovDecision.Document.Json
import MarkovDecision.Document.Json.Reader
import MarkovDecision.Document.Json.Writer
import MarkovDecision.Document.Records
import MarkovDecision.Document.Sheet
import MarkovDecision.Estimate
import MarkovDecision.Estimate.Summary
import MarkovDecision.Event
import MarkovDecision.Event.Message
import MarkovDecision.Experiment.CaseStudy
import MarkovDecision.Experiment.Catalog
import MarkovDecision.Experiment.Command
import MarkovDecision.Experiment.Outcomes
import MarkovDecision.Experiment.Results
import MarkovDecision.Experiment.Run
import MarkovDecision.Experiment.Settings
import MarkovDecision.Experiment.Transcript
import MarkovDecision.Experiment.UtilityRows
import MarkovDecision.Fault
import MarkovDecision.Fault.Message
import MarkovDecision.Grid.Label
import MarkovDecision.Grid.Layout
import MarkovDecision.Grid.Model
import MarkovDecision.Grid.Render
import MarkovDecision.Ident
import MarkovDecision.Ident.Written
import MarkovDecision.Inquiry
import MarkovDecision.Main
import MarkovDecision.Model
import MarkovDecision.Model.Description
import MarkovDecision.Model.Validation
import MarkovDecision.Proofs.Backup
import MarkovDecision.Proofs.BellmanAgreement
import MarkovDecision.Proofs.Chain
import MarkovDecision.Proofs.Contraction
import MarkovDecision.Proofs.Coverage
import MarkovDecision.Proofs.CrossCheck
import MarkovDecision.Proofs.Decimal.Places
import MarkovDecision.Proofs.Defects
import MarkovDecision.Proofs.Document.Json
import MarkovDecision.Proofs.Exact
import MarkovDecision.Proofs.Experiment.Files
import MarkovDecision.Proofs.Extended
import MarkovDecision.Proofs.FixedPoint
import MarkovDecision.Proofs.Grid.Layout
import MarkovDecision.Proofs.Grid.Model
import MarkovDecision.Proofs.Grid.Numbering
import MarkovDecision.Proofs.Grid.PushForward
import MarkovDecision.Proofs.Grid.Render
import MarkovDecision.Proofs.Grid.Symmetry
import MarkovDecision.Proofs.Ident.Written
import MarkovDecision.Proofs.Inquiry
import MarkovDecision.Proofs.Locality
import MarkovDecision.Proofs.Lookup
import MarkovDecision.Proofs.OrderIndependence
import MarkovDecision.Proofs.Policy
import MarkovDecision.Proofs.PolicyEvaluation
import MarkovDecision.Proofs.PolicyIteration.Certificate
import MarkovDecision.Proofs.PolicyIteration.ExactEvaluation
import MarkovDecision.Proofs.PolicyIteration.Improvement
import MarkovDecision.Proofs.PolicyIteration.Optimality
import MarkovDecision.Proofs.PolicyIteration.Revisit
import MarkovDecision.Proofs.PolicyIteration.Run
import MarkovDecision.Proofs.PolicyIteration.Shortfall
import MarkovDecision.Proofs.PolicyIteration.Termination
import MarkovDecision.Proofs.PolicyIteration.Trace
import MarkovDecision.Proofs.PolicyIteration.Tracking
import MarkovDecision.Proofs.Ready
import MarkovDecision.Proofs.Renaming
import MarkovDecision.Proofs.Reordering
import MarkovDecision.Proofs.Results
import MarkovDecision.Proofs.RewardBound
import MarkovDecision.Proofs.RowCheck
import MarkovDecision.Proofs.RowVerdict
import MarkovDecision.Proofs.Session
import MarkovDecision.Proofs.Statistics.Sum
import MarkovDecision.Proofs.Sweep
import MarkovDecision.Proofs.SweepContraction
import MarkovDecision.Proofs.Terminals
import MarkovDecision.Proofs.Text.Quoted
import MarkovDecision.Proofs.Validated
import MarkovDecision.Proofs.Validation
import MarkovDecision.Proofs.ValueIteration.Convergence
import MarkovDecision.Proofs.ValueIteration.GreedyPolicy
import MarkovDecision.Proofs.ValueIteration.Plans
import MarkovDecision.Proofs.ValueIteration.Run
import MarkovDecision.Proofs.ValueIteration.Trace
import MarkovDecision.Proofs.Walk.Batch
import MarkovDecision.Proofs.Walk.Draw
import MarkovDecision.Proofs.Walk.Endings
import MarkovDecision.Proofs.Walk.Expectation
import MarkovDecision.Proofs.Walk.Outcomes
import MarkovDecision.Proofs.Walk.Run
import MarkovDecision.Proofs.Walk.StateEstimates
import MarkovDecision.Proofs.Walk.Visits
import MarkovDecision.Random.Generator
import MarkovDecision.Random.Seed
import MarkovDecision.Random.Source
import MarkovDecision.Scalar
import MarkovDecision.Simulate.Batch
import MarkovDecision.Simulate.Walk
import MarkovDecision.Solve.Bellman
import MarkovDecision.Solve.PolicyEvaluation
import MarkovDecision.Solve.PolicyIteration
import MarkovDecision.Solve.ValueIteration
import MarkovDecision.Statistics.Beta
import MarkovDecision.Statistics.Interval
import MarkovDecision.Statistics.Magnitude
import MarkovDecision.Statistics.Student
import MarkovDecision.Statistics.Sum
import MarkovDecision.Table
import MarkovDecision.Text.Align
import MarkovDecision.Text.Capital
import MarkovDecision.Text.Path
import MarkovDecision.Text.Printable
import MarkovDecision.Text.Quoted
