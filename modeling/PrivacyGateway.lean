import PrivacyGateway.Lib.Selection
import PrivacyGateway.Lib.Scan
import PrivacyGateway.Lib.Radix
import PrivacyGateway.Domain
import PrivacyGateway.Unicode
import PrivacyGateway.Detection.Overlap
import PrivacyGateway.Policy.Models
import PrivacyGateway.Detection.Config
import PrivacyGateway.Detection.Postprocess
import PrivacyGateway.Tokenization.Selection
import PrivacyGateway.Detection.Proofs.Hiding
import PrivacyGateway.Tokenization.Grammar
import PrivacyGateway.Lib.Effect
import PrivacyGateway.Lib.Frame
import PrivacyGateway.Tokenization.Identity
import PrivacyGateway.Tokenization.Tokenizer
import PrivacyGateway.Tokenization.Proofs.Transform
import PrivacyGateway.Documents.Analysis
import PrivacyGateway.Documents.Proofs.Stages
import PrivacyGateway.Detection.Base
import PrivacyGateway.Lib.Find
import PrivacyGateway.Outbound.Scan
import PrivacyGateway.Outbound.Proofs.Completeness
import PrivacyGateway.Lib.Keyspace
import PrivacyGateway.Tokenization.Ids
import PrivacyGateway.Vault.Crypto
import PrivacyGateway.Vault.Records
import PrivacyGateway.Vault.Redis
import PrivacyGateway.Vault.RedisVault
import PrivacyGateway.Vault.System
import PrivacyGateway.Vault.Proofs.Batch
import PrivacyGateway.Vault.Proofs.Calls
import PrivacyGateway.Vault.Proofs.Runs
import PrivacyGateway.Vault.Reference
import PrivacyGateway.Vault.Proofs.Resolution
import PrivacyGateway.Vault.Proofs.Deletion
import PrivacyGateway.Vault.Proofs.Orphans
import PrivacyGateway.Restoration.Pipeline
import PrivacyGateway.Vault.Proofs.Bindings
import PrivacyGateway.Vault.Proofs.Lifetimes
import PrivacyGateway.Tokenization.Proofs.Mint
import PrivacyGateway.Restoration.Proofs.RoundTrip
import PrivacyGateway.Documents.Segmenter
import PrivacyGateway.Lib.Windows
import PrivacyGateway.Documents.Proofs.Segments
import PrivacyGateway.Pipeline.Guards
import PrivacyGateway.Pipeline.Proofs.Guards
import PrivacyGateway.Vault.Proofs.Admission
import PrivacyGateway.Config.Proofs.Deployment
import PrivacyGateway.Documents.Proofs.Protection
import PrivacyGateway.Outbound.Proofs.Substitutions
import PrivacyGateway.Tokenization.Proofs.Surrogates
import PrivacyGateway.Restoration.Proofs.Pseudonyms
import PrivacyGateway.Vault.Proofs.Coherence
import PrivacyGateway.Tokenization.Sessions
import PrivacyGateway.Tokenization.Proofs.Coherence
import PrivacyGateway.Tokenization.Proofs.Sessions
import PrivacyGateway.Vault.Proofs.Tampering
import PrivacyGateway.Audit.Correlation
import PrivacyGateway.Audit.Models
import PrivacyGateway.Lib.Ledger
import PrivacyGateway.Detection.Engine
import PrivacyGateway.Outbound.Attestation
import PrivacyGateway.Policy.Cache
import PrivacyGateway.Audit.Queue
import PrivacyGateway.Journal
import PrivacyGateway.Llm.Registry
import PrivacyGateway.Policy.Service
import PrivacyGateway.Audit.Service
import PrivacyGateway.Outbound.Gateway
import PrivacyGateway.Api.Composition
import PrivacyGateway.Pipeline.Reporting
import PrivacyGateway.Documents.Pipeline
import PrivacyGateway.Pipeline.Service
import PrivacyGateway.Outbound.Proofs.Journal
import PrivacyGateway.Audit.Proofs.Rows
import PrivacyGateway.Documents.Proofs.Types
import PrivacyGateway.Policy.Proofs.Service
import PrivacyGateway.Audit.Proofs.Endings
import PrivacyGateway.Pipeline.Proofs.Journal
import PrivacyGateway.Documents.Proofs.Journal
import PrivacyGateway.Documents.Proofs.Governance
import PrivacyGateway.Api.Proofs.Auditing
import PrivacyGateway.Documents.Crypto
import PrivacyGateway.Documents.Proofs.Streams
import PrivacyGateway.Documents.Proofs.Splices
import PrivacyGateway.Lib.Utf8
import PrivacyGateway.Documents.Validation
import PrivacyGateway.Documents.Service
import PrivacyGateway.Documents.Proofs.Drift
import PrivacyGateway.Documents.Proofs.Uploads
import PrivacyGateway.Policy.Repository
import PrivacyGateway.Policy.Proofs.Publishing
import PrivacyGateway.Lib.ReadCommitted
import PrivacyGateway.Policy.Transactions
import PrivacyGateway.Policy.Proofs.Immutability
import PrivacyGateway.Policy.Calls
import PrivacyGateway.Policy.Proofs.Staleness
import PrivacyGateway.Documents.Extraction
import PrivacyGateway.Documents.Proofs.Checkpoint
import PrivacyGateway.Documents.Proofs.Reselection
import PrivacyGateway.Documents.Proofs.Budget
import PrivacyGateway.Lib.SlidingWindow
import PrivacyGateway.Auth.RateLimit
import PrivacyGateway.Auth.Proofs.RateLimit
import PrivacyGateway.Audit.Writer
import PrivacyGateway.Audit.Proofs.Writer
import PrivacyGateway.Vault.Proofs.Contract
import PrivacyGateway.Vault.Proofs.Reuse
import PrivacyGateway.Tokenization.Proofs.Reference
import PrivacyGateway.Tokenization.Proofs.Scanning
import PrivacyGateway.Lib.Regex
import PrivacyGateway.Detection.Recognizers
import PrivacyGateway.Detection.Proofs.Recognizers
import PrivacyGateway.Restoration.Proofs.SinglePass
import PrivacyGateway.Api.Playground
import PrivacyGateway.Api.Proofs.Agreement
import PrivacyGateway.Lib.Kernel
import PrivacyGateway.Detection.Proofs.Resolution
import PrivacyGateway.Documents.Proofs.Instruction
import PrivacyGateway.Documents.Proofs.Coalescing
import PrivacyGateway.Lib.TaskGroup
import PrivacyGateway.Documents.Tasks
import PrivacyGateway.Documents.Proofs.Failures
import PrivacyGateway.Documents.Extractors
import PrivacyGateway.Documents.Proofs.Ceiling
import PrivacyGateway.Policy.Proofs.Numbering
import PrivacyGateway.Auth.Proofs.Evaluation
import PrivacyGateway.Auth.Proofs.RetryAfter
import PrivacyGateway.Detection.Proofs.Cards
import PrivacyGateway.Tokenization.Proofs.Shapes
import PrivacyGateway.Documents.Proofs.Pages
import PrivacyGateway.Outbound.Proofs.Framings
import PrivacyGateway.Documents.Proofs.Formats
import PrivacyGateway.Lib.Marked
import PrivacyGateway.Pipeline.Preview
import PrivacyGateway.Pipeline.Proofs.Preview
import PrivacyGateway.Lib.Tally
import PrivacyGateway.Pipeline.Proofs.Applied
import PrivacyGateway.Lib.Triple
import PrivacyGateway.Documents.S3
import PrivacyGateway.Documents.Proofs.Multipart
import PrivacyGateway.Lib.Interaction
import PrivacyGateway.Api.Errors
import PrivacyGateway.Api.Middleware
import PrivacyGateway.Api.Proofs.BodyLimit
import PrivacyGateway.Lib.Significant
import PrivacyGateway.Policy.Diff
import PrivacyGateway.Lib.Joined
import PrivacyGateway.Policy.Proofs.Diff
import PrivacyGateway.Lib.Scrub
import PrivacyGateway.Observability.Logging
import PrivacyGateway.Auth.ApiKeys
import PrivacyGateway.Auth.Principal
import PrivacyGateway.Lib.Trim
import PrivacyGateway.Auth.Proofs.Keys
import PrivacyGateway.Auth.Proofs.Authentication
import PrivacyGateway.Observability.Proofs.Logging
import PrivacyGateway.Lib.Recency
import PrivacyGateway.Auth.LastUsed
import PrivacyGateway.Auth.Dependencies
import PrivacyGateway.Auth.Proofs.Dependencies
import PrivacyGateway.Lib.Simulation
import PrivacyGateway.Vault.Rotation
import PrivacyGateway.Vault.Proofs.Rotation
import PrivacyGateway.Documents.Proofs.Retrieval
import PrivacyGateway.Lib.Retry
import PrivacyGateway.Llm.Base
import PrivacyGateway.Llm.OpenAIProvider
import PrivacyGateway.Llm.Proofs.Retries
import PrivacyGateway.Policy.Views
import PrivacyGateway.Policy.Proofs.Statements
import PrivacyGateway.Policy.Proofs.Stored
import PrivacyGateway.Policy.Proofs.Activation
import PrivacyGateway.Vault.Proofs.Renaming
import PrivacyGateway.Vault.Proofs.Hiding
import PrivacyGateway.Tokenization.Disclosure
import PrivacyGateway.Tokenization.Proofs.Disclosure
import PrivacyGateway.Tokenization.Proofs.StandIns
import PrivacyGateway.Documents.Proofs.Contention
import PrivacyGateway.Api.Proofs.Narrowing
