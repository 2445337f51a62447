import ServingLifecycle.Backend
import ServingLifecycle.Backend.Faults
import ServingLifecycle.Backend.Simulated
import ServingLifecycle.Decision
import ServingLifecycle.DeployError
import ServingLifecycle.Disk
import ServingLifecycle.Disk.Change
import ServingLifecycle.Disk.Search
import ServingLifecycle.Disk.TreeCopy
import ServingLifecycle.Disk.Walk
import ServingLifecycle.Duration
import ServingLifecycle.Duration.Brief
import ServingLifecycle.Duration.Human
import ServingLifecycle.Identity
import ServingLifecycle.Instant
import ServingLifecycle.Instant.Timestamp
import ServingLifecycle.Metrics
import ServingLifecycle.Metrics.Exposition
import ServingLifecycle.Number.Shortest
import ServingLifecycle.Operation
import ServingLifecycle.PredictorKind
import ServingLifecycle.Program
import ServingLifecycle.Registry
import ServingLifecycle.Request
import ServingLifecycle.Service
import ServingLifecycle.Settings
import ServingLifecycle.Settings.Environment
import ServingLifecycle.Settings.Layers
import ServingLifecycle.Simulation
import ServingLifecycle.Simulation.Clock
import ServingLifecycle.Simulation.Draft
import ServingLifecycle.Simulation.Incident
import ServingLifecycle.Staging.Configured
import ServingLifecycle.Staging.Locator
import ServingLifecycle.Staging.Policy
import ServingLifecycle.Storage
import ServingLifecycle.Storage.Error
import ServingLifecycle.Storage.Filesystem
import ServingLifecycle.Storage.Local
import ServingLifecycle.Storage.Scripted
import ServingLifecycle.Storage.SystemFault
import ServingLifecycle.System
import ServingLifecycle.Text.Blank
import ServingLifecycle.Text.CaseTable
import ServingLifecycle.Text.Escaped
import ServingLifecycle.Text.Lowercase
import ServingLifecycle.Text.PrintableTable
import ServingLifecycle.Text.Quoted
import ServingLifecycle.Text.Series
import ServingLifecycle.Toml
import ServingLifecycle.Toml.Key
import ServingLifecycle.Toml.Moment
import ServingLifecycle.Toml.Number
import ServingLifecycle.Toml.Statement
import ServingLifecycle.Toml.Table
import ServingLifecycle.Toml.Text
import ServingLifecycle.Toml.Value
import ServingLifecycle.Uri
import ServingLifecycle.Uuid
import ServingLifecycle.Value
import ServingLifecycle.Value.Loose
import ServingLifecycle.Value.Reader
import ServingLifecycle.Value.Service
import ServingLifecycle.Value.Settings
import ServingLifecycle.Violation
import ServingLifecycle.Proofs.Operation.Scope
import ServingLifecycle.Proofs.Backend.Calls
import ServingLifecycle.Proofs.Backend.Share
import ServingLifecycle.Proofs.Registry.Entries
import ServingLifecycle.Proofs.Operation.Failure
import ServingLifecycle.Proofs.Operation.Success
import ServingLifecycle.Proofs.System.Turn
import ServingLifecycle.Proofs.System.Locks
import ServingLifecycle.Proofs.System.Sessions
import ServingLifecycle.Proofs.System.Serialisable
import ServingLifecycle.Proofs.System.Answered
import ServingLifecycle.Proofs.Simulation.Moves
import ServingLifecycle.Proofs.Simulation.Regular
import ServingLifecycle.Proofs.Simulation.Homes
import ServingLifecycle.Proofs.Slot.View
import ServingLifecycle.Proofs.Simulation.Projection
import ServingLifecycle.Proofs.Operation.Mirror
import ServingLifecycle.Proofs.Backend.Running
import ServingLifecycle.Proofs.Slot.Single
import ServingLifecycle.Proofs.Simulation.Single
import ServingLifecycle.Proofs.Operation.Continuity
import ServingLifecycle.Proofs.Operation.Retention
import ServingLifecycle.Proofs.System.Retained
import ServingLifecycle.Proofs.Simulation.Books
import ServingLifecycle.Proofs.Operation.Bookkeeping
import ServingLifecycle.Proofs.Backend.Stock
import ServingLifecycle.Proofs.Slot.Books
import ServingLifecycle.Proofs.Operation.Punctual
import ServingLifecycle.Proofs.Simulation.Progress
import ServingLifecycle.Proofs.Simulation.Retry
import ServingLifecycle.Proofs.Operation.Displacement
import ServingLifecycle.Proofs.Program.Heeds
import ServingLifecycle.Proofs.Operation.Overdue
import ServingLifecycle.Proofs.Program.Yields
import ServingLifecycle.Proofs.Operation.Attribution
import ServingLifecycle.Proofs.System.Accounts
import ServingLifecycle.Proofs.Slot.Outlook
import ServingLifecycle.Proofs.Operation.Halting
import ServingLifecycle.Proofs.Backend.Outlook
import ServingLifecycle.Proofs.Slot.Survey
import ServingLifecycle.Proofs.Simulation.Adrift
import ServingLifecycle.Proofs.Path.Names
import ServingLifecycle.Proofs.Disk.Tree
import ServingLifecycle.Proofs.Disk.Walk
import ServingLifecycle.Proofs.Disk.Growth
import ServingLifecycle.Proofs.Disk.Making
import ServingLifecycle.Proofs.Disk.Copying
import ServingLifecycle.Proofs.Disk.Dangling
import ServingLifecycle.Proofs.Storage.Local
import ServingLifecycle.Proofs.Staging.Extent
import ServingLifecycle.Proofs.Staging.Missing
import ServingLifecycle.Proofs.Operation.Stages
import ServingLifecycle.Proofs.Path.Resolve
import ServingLifecycle.Proofs.Staging.Inside
import ServingLifecycle.Proofs.Staging.PolicyOrder
import ServingLifecycle.Proofs.Operation.Answering
import ServingLifecycle.Proofs.Disk.Course
import ServingLifecycle.Proofs.Disk.Way
import ServingLifecycle.Proofs.Disk.Agenda
import ServingLifecycle.Proofs.Disk.Ending
import ServingLifecycle.Proofs.Disk.Overlay
import ServingLifecycle.Proofs.Disk.Laying
import ServingLifecycle.Proofs.Storage.CopyDirectory
import ServingLifecycle.Proofs.Registry.History
import ServingLifecycle.Proofs.Storage.Routing
import ServingLifecycle.Proofs.Staging.Spelling
import ServingLifecycle.Proofs.Operation.Resumption
import ServingLifecycle.Proofs.Operation.Reporting
import ServingLifecycle.Proofs.Operation.Reuse
import ServingLifecycle.Proofs.System.Returns
import ServingLifecycle.Proofs.System.Reuse
import ServingLifecycle.Proofs.Backend.Replacement
import ServingLifecycle.Proofs.Operation.Revival
import ServingLifecycle.Proofs.System.Revived
import ServingLifecycle.Proofs.Operation.Timeouts
import ServingLifecycle.Proofs.Staging.Location
import ServingLifecycle.Proofs.Storage.Configured
import ServingLifecycle.Proofs.Value.Merge
import ServingLifecycle.Proofs.Value.Shape
import ServingLifecycle.Proofs.Value.Reading
import ServingLifecycle.Proofs.Toml.Ordered
import ServingLifecycle.Proofs.Text.Lowercase
import ServingLifecycle.Proofs.Settings.Environment
import ServingLifecycle.Proofs.Settings.Reading
import ServingLifecycle.Proofs.Settings.Layers
import ServingLifecycle.Proofs.Registry.Uniqueness
import ServingLifecycle.Proofs.Duration.Human
import ServingLifecycle.Proofs.Value.Written
import ServingLifecycle.Proofs.Settings.Serialised
import ServingLifecycle.Proofs.Instant.Timestamp
import ServingLifecycle.Proofs.Service.Serialised
import ServingLifecycle.Proofs.Value.Loose
import ServingLifecycle.Proofs.Value.Nested
import ServingLifecycle.Proofs.Toml.Line
import ServingLifecycle.Proofs.Settings.TextSetting
import ServingLifecycle.Proofs.Settings.Texts
import ServingLifecycle.Proofs.System.LockTable
import ServingLifecycle.Proofs.Staging.Grouping
