import TraceCollector.Main
import TraceCollector.TraceId
import TraceCollector.Proofs.Arrivals
import TraceCollector.Proofs.FinishingPoints
import TraceCollector.Proofs.Service.Effects
import TraceCollector.Proofs.Service.SummaryQueries
import TraceCollector.Proofs.Service.Isolation
import TraceCollector.Proofs.Summaries
import TraceCollector.Proofs.OpenSegments
import TraceCollector.Proofs.ArrivalOrder
import TraceCollector.Proofs.DocumentRules
import TraceCollector.Proofs.WindowGrowth
import TraceCollector.Proofs.RuleStrength
import TraceCollector.Proofs.Ingest
import TraceCollector.Proofs.Service.Runs
import TraceCollector.Proofs.Service.Batches
import TraceCollector.Proofs.Rounding
import TraceCollector.Proofs.WholeSeconds
import TraceCollector.Proofs.DocumentContent
import TraceCollector.Proofs.Numerals
import TraceCollector.Proofs.Service.TimeParameters
import TraceCollector.Proofs.Service.Batching
import TraceCollector.Proofs.Service.WholeSecondWindows
import TraceCollector.Proofs.ReadObjects
import TraceCollector.Proofs.DocumentRestoration
import TraceCollector.Proofs.Service.NullParameters
import TraceCollector.Proofs.GenuineWindows
import TraceCollector.Proofs.Service.Regions
import TraceCollector.Proofs.TelemetryPayloads
import TraceCollector.Proofs.Service.TelemetryLogs
import TraceCollector.Proofs.Json.Strings
import TraceCollector.Proofs.Json.Integers
import TraceCollector.Proofs.Json.Conformance
import TraceCollector.Proofs.Json.RoundTrip
import TraceCollector.Proofs.Json.Forms
import TraceCollector.Proofs.WireForms
import TraceCollector.Proofs.Service.WireForms
import TraceCollector.Proofs.ConfigurationLayers
import TraceCollector.Proofs.ConfigurationChecks
import TraceCollector.Proofs.RoundingOrder
import TraceCollector.Proofs.EpochAccuracy
import TraceCollector.Proofs.EpochOrder
import TraceCollector.Proofs.TraceIds
import TraceCollector.Proofs.Service.Credentials
import TraceCollector.Proofs.Blanks
import TraceCollector.Proofs.Service.SummaryRequests
import TraceCollector.Proofs.RegionLists
