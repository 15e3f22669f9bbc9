import IncidentEvidence.Py.Str
import IncidentEvidence.Py.Json
import IncidentEvidence.Py.JsonMembers
import IncidentEvidence.Py.Dict
import IncidentEvidence.Py.Uuid
import IncidentEvidence.Py.JsonDecode
import IncidentEvidence.Py.JsonEncoder
import IncidentEvidence.Py.JsonRoundTrip
import IncidentEvidence.Py.UuidText
import IncidentEvidence.Api.Answers
import IncidentEvidence.Api.App
import IncidentEvidence.Api.Board
import IncidentEvidence.Api.Clients
import IncidentEvidence.Api.Served
import IncidentEvidence.Api.Guarantees
import IncidentEvidence.Api.AuditTrail
import IncidentEvidence.Application.VerifyStage
import IncidentEvidence.Runtime.DemoLlm
import IncidentEvidence.Api.ReportBodies
import IncidentEvidence.Api.Control
import IncidentEvidence.Application.Backends
import IncidentEvidence.Application.Unrefused
import IncidentEvidence.Py.Datetime
import IncidentEvidence.Py.DatetimeOrder
import IncidentEvidence.Py.Sorted
import IncidentEvidence.Py.Float
import IncidentEvidence.Py.Except
import IncidentEvidence.Py.Action
import IncidentEvidence.Py.Repr
import IncidentEvidence.Py.Hash
import IncidentEvidence.Py.ExactHex
import IncidentEvidence.Concurrency.Runs
import IncidentEvidence.Concurrency.Tickets
import IncidentEvidence.Concurrency.Snapshots
import IncidentEvidence.Sql.Tables
import IncidentEvidence.Sql.Logic
import IncidentEvidence.Domain.Incidents
import IncidentEvidence.Domain.Baseline
import IncidentEvidence.Domain.Evidence.ContentId
import IncidentEvidence.Domain.Evidence.Types
import IncidentEvidence.Domain.Evidence.Parsing
import IncidentEvidence.Domain.Evidence.Identity
import IncidentEvidence.Domain.Evidence.Decisions
import IncidentEvidence.Domain.Evidence.Ledger
import IncidentEvidence.Domain.Evidence.Compiled
import IncidentEvidence.Domain.Evidence.Faithful
import IncidentEvidence.Domain.ChangeEvidence
import IncidentEvidence.Domain.ChangeLedgers
import IncidentEvidence.Domain.Evidence.Binding
import IncidentEvidence.Domain.Hypotheses
import IncidentEvidence.Domain.Verifier
import IncidentEvidence.Domain.Verdicts
import IncidentEvidence.Domain.Duality
import IncidentEvidence.Domain.ChangeVerdicts
import IncidentEvidence.Domain.Omissions
import IncidentEvidence.Domain.Thresholds
import IncidentEvidence.Domain.Serialization
import IncidentEvidence.Domain.VerificationJson
import IncidentEvidence.Domain.LedgerJson
import IncidentEvidence.Domain.CanonicalLedgers
import IncidentEvidence.Domain.Rederivation
import IncidentEvidence.Exceptions
import IncidentEvidence.Llm.Parsing
import IncidentEvidence.Persistence.Records
import IncidentEvidence.Persistence.Memory
import IncidentEvidence.Persistence.UnitOfWork
import IncidentEvidence.Persistence.Filed
import IncidentEvidence.Persistence.SqlSchema
import IncidentEvidence.Persistence.SqlClaim
import IncidentEvidence.Persistence.PostgresClaims
import IncidentEvidence.Application.Creation
import IncidentEvidence.Application.Sessions
import IncidentEvidence.Application.Worker
import IncidentEvidence.Application.Pipeline
import IncidentEvidence.Application.WorkerSpecs
import IncidentEvidence.Application.UseCases
import IncidentEvidence.Application.Kept
import IncidentEvidence.Application.Effects
import IncidentEvidence.Application.Service
import IncidentEvidence.Application.Lifecycle
import IncidentEvidence.Application.ConcurrentCreation
import IncidentEvidence.Application.FailedRuns
import IncidentEvidence.Application.Redelivery
import IncidentEvidence.Application.Undisturbed
import IncidentEvidence.Persistence.Migrations
import IncidentEvidence.Py.Conversions
import IncidentEvidence.Py.Csv
import IncidentEvidence.Evaluation.CsvLoader
import IncidentEvidence.Py.Raises
import IncidentEvidence.Evaluation.TypedFailures
import IncidentEvidence.Evaluation.Adapter
import IncidentEvidence.Domain.Metrics
import IncidentEvidence.Runtime.Prometheus
import IncidentEvidence.Runtime.ResponseBoundary
import IncidentEvidence.Application.Archive
import IncidentEvidence.Application.Citations
import IncidentEvidence.Application.EvidenceListing
import IncidentEvidence.Domain.BaselineJson
import IncidentEvidence.Application.Audit
import IncidentEvidence.Application.Isolation
import IncidentEvidence.Llm.Gemini
import IncidentEvidence.Application.Prompts
import IncidentEvidence.Application.PoisonJob
import IncidentEvidence.Py.Median
import IncidentEvidence.Domain.RelatedRankings
import IncidentEvidence.Domain.UnitIndependence
import IncidentEvidence.Domain.Locality
import IncidentEvidence.Runtime.SeriesMapping
import IncidentEvidence.Runtime.SeriesNames
import IncidentEvidence.Persistence.Leases
import IncidentEvidence.Application.Attempts
import IncidentEvidence.Application.Draining
import IncidentEvidence.Application.Reporting
import IncidentEvidence.Py.FloatFormat
import IncidentEvidence.Observability.Metrics
import IncidentEvidence.Py.Coupling
import IncidentEvidence.Application.Metered
import IncidentEvidence.Py.BoundedFloat
import IncidentEvidence.Application.Stamps
import IncidentEvidence.Application.TokenMetadata
import IncidentEvidence.Runtime.Config
import IncidentEvidence.Py.Timedelta
import IncidentEvidence.Runtime.Server
import IncidentEvidence.Api.Auth
import IncidentEvidence.Observability.Tallies
import IncidentEvidence.Observability.Samples
import IncidentEvidence.Observability.Exposition
import IncidentEvidence.Observability.Unambiguous
import IncidentEvidence.Observability.Registrations
import IncidentEvidence.Evaluation.Observations
import IncidentEvidence.Evaluation.Batches
import IncidentEvidence.Evaluation.Discovery
import IncidentEvidence.Evaluation.Traversal
import IncidentEvidence.Py.CsvRun
import IncidentEvidence.Evaluation.WidthScan
import IncidentEvidence.Py.JsonSpacing
import IncidentEvidence.Py.JsonRespaced
import IncidentEvidence.Llm.Fences
import IncidentEvidence.Concurrency.Gather
import IncidentEvidence.Evaluation.Scoring
import IncidentEvidence.Evaluation.Runner
import IncidentEvidence.Evaluation.Summaries
import IncidentEvidence.Evaluation.Preparation
import IncidentEvidence.Evaluation.SupportedServices
