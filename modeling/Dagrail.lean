import Dagrail.Foundation.Outcome
import Dagrail.Foundation.Table
import Dagrail.Foundation.Rows
import Dagrail.Foundation.Json
import Dagrail.Foundation.Decode
import Dagrail.Foundation.Text
import Dagrail.Foundation.FirstMatch
import Dagrail.Foundation.Acyclic
import Dagrail.Foundation.Search
import Dagrail.Foundation.Joined
import Dagrail.Foundation.Outstanding
import Dagrail.Foundation.Schema
import Dagrail.Domain.Time
import Dagrail.Domain.Graph
import Dagrail.Domain.Validate
import Dagrail.Domain.WellFormed
import Dagrail.Domain.State
import Dagrail.Domain.Frontier
import Dagrail.Domain.CutIndex
import Dagrail.Domain.Authority
import Dagrail.Service.Event
import Dagrail.Service.Digest
import Dagrail.Service.Platform
import Dagrail.Service.Evidence
import Dagrail.Service.Decision
import Dagrail.Service.Reduce
import Dagrail.Service.Frame
import Dagrail.Service.Append
import Dagrail.Service.Content
import Dagrail.Service.GraphChange
import Dagrail.Service.FrozenContract
import Dagrail.Service.Roles
import Dagrail.Service.Input
import Dagrail.Service.Incidents
import Dagrail.Service.ActionRef
import Dagrail.Service.Resources
import Dagrail.Service.Effects
import Dagrail.Service.Apply
import Dagrail.Service.Commands
import Dagrail.Service.Payload
import Dagrail.Service.LifecycleEvent
import Dagrail.Service.LifecycleIncident
import Dagrail.Service.LifecycleRecord
import Dagrail.Service.LifecycleManifest
import Dagrail.Service.LifecycleImport
import Dagrail.Service.LifecycleSteps
import Dagrail.Service.LifecycleRefinement
import Dagrail.Service.System
import Dagrail.Service.Runs
import Dagrail.Service.RoleLeases
import Dagrail.Service.IncrementalReplay
import Dagrail.Service.Writes
import Dagrail.Service.Continuity
import Dagrail.Service.SkippedSources
import Dagrail.Service.ResourceLeases
import Dagrail.Service.ResourceLaws
import Dagrail.Service.Readiness
import Dagrail.Service.Settlement
import Dagrail.Service.Automatic
import Dagrail.Service.ResourceRuns
import Dagrail.Service.LiveAttempts
import Dagrail.Service.LiveRuns
import Dagrail.Service.Dispatches
import Dagrail.Service.Observations
import Dagrail.Service.AttemptLaws
import Dagrail.Service.CutReference
import Dagrail.Service.LifecycleLedger
import Dagrail.Service.LifecycleClosed
import Dagrail.Journal.Segment
import Dagrail.Journal.Canonical
import Dagrail.Journal.Chain
import Dagrail.Journal.Backup
import Dagrail.Journal.Directory
import Dagrail.Journal.Restore
import Dagrail.Projection.Store
import Dagrail.Projection.Checkpoint
import Dagrail.Projection.Equivalence
import Dagrail.Foundation.SemVer
import Dagrail.Controller.Semver
import Dagrail.Foundation.Nesting
import Dagrail.Grouping.Projection
import Dagrail.Grouping.Consistency
import Dagrail.Service.Listing
import Dagrail.Service.BindAnswers
import Dagrail.Journal.Head
import Dagrail.Domain.Scanner
import Dagrail.Service.StrictDecoding
import Dagrail.Foundation.Changes
import Dagrail.Service.PatchImpact
import Dagrail.Service.Ownership
import Dagrail.Service.IncidentRules
import Dagrail.Foundation.Base64
import Dagrail.Foundation.Members
import Dagrail.Service.CompactRef
import Dagrail.Service.Declared
import Dagrail.Service.Offers
import Dagrail.Domain.Calendar
import Dagrail.Service.EvidenceDocuments
import Dagrail.Service.EvidenceOrder
import Dagrail.Service.EvidenceLaws
import Dagrail.Foundation.Framing
import Dagrail.Projection.Fingerprint
import Dagrail.Foundation.Forest
import Dagrail.Explorer.Backbone
import Dagrail.Git.Object
import Dagrail.Git.Reader
import Dagrail.Git.Scope
import Dagrail.Git.ScopeLaws
import Dagrail.Git.Closure
import Dagrail.Git.ClosureReads
import Dagrail.Git.ClosureLaws
import Dagrail.Install.Runtime
import Dagrail.Install.RuntimeSteps
import Dagrail.Install.RuntimeLaws
import Dagrail.Journal.Writer
import Dagrail.Journal.WriterLaws
import Dagrail.Journal.FullJournal
import Dagrail.Journal.WriterRuns
import Dagrail.Journal.ExactlyOnce
import Dagrail.Explorer.Cache
import Dagrail.Foundation.Pages
import Dagrail.Service.CutPages
import Dagrail.Service.CutPageLaws
import Dagrail.Journal.History
