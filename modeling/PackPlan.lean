import PackPlan.Cache.Recency
import PackPlan.Config.Json
import PackPlan.Main
import PackPlan.Proofs.Cache.Coherent
import PackPlan.Proofs.Cache.Conservation
import PackPlan.Proofs.Cache.Freshness
import PackPlan.Proofs.Cache.Inclusion
import PackPlan.Proofs.Cache.Retention
import PackPlan.Proofs.Cache.Sweep
import PackPlan.Proofs.Calculator.Custom
import PackPlan.Proofs.Calculator.Failure
import PackPlan.Proofs.Calculator.Transparency
import PackPlan.Proofs.CommandLine.Calculate
import PackPlan.Proofs.CommandLine.LogLevel
import PackPlan.Proofs.Solver.Cells
import PackPlan.Proofs.Solver.Comparison
import PackPlan.Proofs.Solver.Ending
import PackPlan.Shipment.Json
import PackPlan.SizeSet.Reader
import PackPlan.Proofs.Numeral
import PackPlan.Proofs.SizeSet.Construction
import PackPlan.Proofs.SizeSet.Reader
import PackPlan.Proofs.Json.Text
import PackPlan.Proofs.Json.Record
import PackPlan.Proofs.Json.Writer
import PackPlan.Proofs.SizeSet.RoundTrip
import PackPlan.Proofs.Shipment.RoundTrip
import PackPlan.Proofs.Report.Balance
import PackPlan.Proofs.Report.Stream
import PackPlan.Proofs.Report.Table
import PackPlan.Proofs.Config.Json
import PackPlan.Proofs.Config.Yaml
