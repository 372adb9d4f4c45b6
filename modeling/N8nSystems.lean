import N8nSystems.Lib.Run
import N8nSystems.Lib.Pool
import N8nSystems.Lib.Ledger
import N8nSystems.Lib.PyText
import N8nSystems.Lib.Scan
import N8nSystems.Lib.Search
import N8nSystems.Gateway.Authenticity
import N8nSystems.Gateway.Freshness
import N8nSystems.Gateway.SqlInbox
import N8nSystems.Gateway.EventTime
import N8nSystems.Review.Delivery
import N8nSystems.Documents.Announcement
import N8nSystems.Documents.UploadRules
import N8nSystems.Services.Tokens
import N8nSystems.Documents.FilesystemReads
import N8nSystems.Leads.ScoreCap
import N8nSystems.Leads.Whitespace
import N8nSystems.Errors.Plain
import N8nSystems.Workflows.CleanExport
import N8nSystems.Workflows.SyncedLint
import N8nSystems.Workflows.Idempotence
import N8nSystems.MockLlm.SchemaValid
import N8nSystems.Tenants.Isolation
import N8nSystems.Validators.Validate
import N8nSystems.Validators.PlainIdentifiers
import N8nSystems.FlakyApi.Counts
import N8nSystems.Errors.Returns
import N8nSystems.Errors.KnownStatus
import N8nSystems.Workflows.GraphKept
import N8nSystems.Workflows.SecretGate
import N8nSystems.FlakyApi.Creates
import N8nSystems.FlakyApi.ShownIds
import N8nSystems.Lib.CheckNumber
import N8nSystems.Validators.Typos
import N8nSystems.Lib.WeightedSum
import N8nSystems.Validators.IbanStandard
import N8nSystems.Validators.References
import N8nSystems.Validators.BusinessIds
import N8nSystems.Validators.Renderings
import N8nSystems.Lib.Rounding
import N8nSystems.Lib.PyRounded
import N8nSystems.Validators.VatArithmetic
import N8nSystems.Lib.PyCodec
import N8nSystems.Lib.PyJson
import N8nSystems.Workflows.Files
import N8nSystems.Lib.FirstGreatest
import N8nSystems.Leads.Routes
import N8nSystems.Workflows.HardcodedUrls
import N8nSystems.Lib.Binary64
import N8nSystems.Errors.Backoff
import N8nSystems.Lib.PyCase
import N8nSystems.Leads.CompanyDomain
import N8nSystems.Lib.PyDumps
import N8nSystems.Lib.PyLoaded
import N8nSystems.Workflows.Rewritten
import N8nSystems.Workflows.SyncFile
import N8nSystems.MockLlm.Completions
import N8nSystems.MockLlm.Contents
import N8nSystems.Review.Posted
import N8nSystems.Lib.Linearized
import N8nSystems.Documents.PostgresDocuments
import N8nSystems.Lib.Privileges
import N8nSystems.Ops.Grants
import N8nSystems.Lib.Directory
import N8nSystems.Workflows.Export
import N8nSystems.Lib.PyTemplate
import N8nSystems.Workflows.Credentials
import N8nSystems.FlakyApi.Faults
import N8nSystems.MockLlm.Modes
import N8nSystems.FlakyApi.Metrics
import N8nSystems.Lib.Grouping
import N8nSystems.Review.Listing
import N8nSystems.Review.Access
