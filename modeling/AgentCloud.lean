import AgentCloud.Lib.Checked
import AgentCloud.Lib.Table
import AgentCloud.Lib.Protocol
import AgentCloud.Lib.Durable
import AgentCloud.Lib.Outcome
import AgentCloud.Lib.Once
import AgentCloud.Lib.Json
import AgentCloud.Lib.Posix
import AgentCloud.Lib.Triple
import AgentCloud.Lib.Machine
import AgentCloud.Lib.Utf
import AgentCloud.Contracts
import AgentCloud.Auth
import AgentCloud.Grants
import AgentCloud.Delegation.Customers
import AgentCloud.Delegation.Attenuation
import AgentCloud.Delegation.Chains
import AgentCloud.Access.Sessions
import AgentCloud.Access.Target
import AgentCloud.Access.Service
import AgentCloud.Access.Discipline
import AgentCloud.Access.Workers
import AgentCloud.Access.Revocation
import AgentCloud.Access.Uniqueness
import AgentCloud.Access.Locks
import AgentCloud.Access.Reservations
import AgentCloud.Access.Concurrency
import AgentCloud.Access.Slots
import AgentCloud.Access.Leases
import AgentCloud.Access.Gateway
import AgentCloud.Access.Heartbeats
import AgentCloud.Access.Records
import AgentCloud.Access.Guarding
import AgentCloud.Access.Signing
import AgentCloud.Access.Desk
import AgentCloud.Access.Effects
import AgentCloud.Access.Stages
import AgentCloud.Access.Agreement
import AgentCloud.Access.Deadlines
import AgentCloud.Backups.Records
import AgentCloud.Backups.ObjectStore
import AgentCloud.Backups.Reading
import AgentCloud.Backups.Work
import AgentCloud.Backups.Admission
import AgentCloud.Backups.Purges
import AgentCloud.Backups.Schedules
import AgentCloud.Backups.Discipline
import AgentCloud.Backups.Workers
import AgentCloud.Backups.RestoreWorkers
import AgentCloud.Backups.Callers
import AgentCloud.Backups.AtMostOnce
import AgentCloud.Backups.Changes
import AgentCloud.Backups.Ledger
import AgentCloud.Backups.Custody
import AgentCloud.Backups.Recording
import AgentCloud.Backups.Purging
import AgentCloud.Backups.Admitting
import AgentCloud.Backups.Storage
import AgentCloud.Backups.Accounting
import AgentCloud.Backups.Leaks
import AgentCloud.Backups.PurgeSafety
import AgentCloud.Backups.Retention
import AgentCloud.Backups.Spacing
import AgentCloud.Commands.Records
import AgentCloud.Commands.Output
import AgentCloud.Commands.Paging
import AgentCloud.Commands.Runs
import AgentCloud.Commands.Lives
import AgentCloud.Commands.Wrapping
import AgentCloud.Commands.Working
import AgentCloud.Commands.Results
import AgentCloud.Compose.Config
import AgentCloud.Compose.Isolation
import AgentCloud.Compose.Restored
import AgentCloud.Deployments.Records
import AgentCloud.Deployments.Programs
import AgentCloud.Deployments.Views
import AgentCloud.Deployments.Keeping
import AgentCloud.Deployments.Sharing
import AgentCloud.Deployments.Commanding
import AgentCloud.Deployments.Admitting
import AgentCloud.Deployments.Working
import AgentCloud.Deployments.Protocol
import AgentCloud.Deployments.Ancestry
import AgentCloud.Hosting.Guest
import AgentCloud.Hosting.Reloads
import AgentCloud.Hosting.Routes
import AgentCloud.Hosting.Effects
import AgentCloud.Hosting.Protocol
import AgentCloud.Hosting.Invariant
import AgentCloud.Hosting.Removal
import AgentCloud.Hosting.Retention
import AgentCloud.Hosting.Snapshots
import AgentCloud.Hosting.Versions
import AgentCloud.Images.Records
import AgentCloud.Images.Guards
import AgentCloud.Images.Budget
import AgentCloud.Images.Ports
import AgentCloud.Images.Policy
import AgentCloud.Images.Journal
import AgentCloud.Images.Cleanup
import AgentCloud.Images.Building
import AgentCloud.Images.Publication
import AgentCloud.Images.Pins
import AgentCloud.Images.Changes
import AgentCloud.Images.Invariant
import AgentCloud.Images.Discipline
import AgentCloud.Images.Rules
import AgentCloud.Images.Reconciling
import AgentCloud.Images.Running
import AgentCloud.Images.Working
import AgentCloud.Images.Runs
import AgentCloud.Images.Submissions
import AgentCloud.Images.Releases
import AgentCloud.Images.Allowance
import AgentCloud.Images.Retention
import AgentCloud.Lifecycle.Provider
import AgentCloud.Lifecycle.Records
import AgentCloud.Lifecycle.Guards
import AgentCloud.Lifecycle.Resources
import AgentCloud.Lifecycle.Effects
import AgentCloud.Lifecycle.Advance
import AgentCloud.Lifecycle.Cleanup
import AgentCloud.Lifecycle.Recovery
import AgentCloud.Lifecycle.Admission
import AgentCloud.Lifecycle.Changes
import AgentCloud.Lifecycle.Invariant
import AgentCloud.Lifecycle.Discipline
import AgentCloud.Lifecycle.Rules
import AgentCloud.Lifecycle.Journalling
import AgentCloud.Lifecycle.Resolving
import AgentCloud.Lifecycle.Advancing
import AgentCloud.Lifecycle.Cleaning
import AgentCloud.Lifecycle.Recovering
import AgentCloud.Lifecycle.Runs
import AgentCloud.Lifecycle.Submissions
import AgentCloud.Lifecycle.Endings
import AgentCloud.Lifecycle.CleanupOrder
import AgentCloud.Lifecycle.Retries
import AgentCloud.Lib.Writes
import AgentCloud.Lifecycle.Names
import AgentCloud.Lifecycle.Reservations
import AgentCloud.Lifecycle.Fleet
import AgentCloud.Lifecycle.FleetOrder
import AgentCloud.Lifecycle.Budget
import AgentCloud.Lifecycle.Idempotency
import AgentCloud.Control.Requests
import AgentCloud.Control.Generations
import AgentCloud.Lib.Executions
import AgentCloud.Control.Closures
import AgentCloud.Backups.Targets
import AgentCloud.Backups.Bucket
import AgentCloud.Lib.Decimal
import AgentCloud.Pricing.Catalog
import AgentCloud.Certificates.Gateway
import AgentCloud.Certificates.Renewal
import AgentCloud.Envelopes.Backup
import AgentCloud.Envelopes.Encrypting
import AgentCloud.Envelopes.Restoring
import AgentCloud.Deployments.Promotion
import AgentCloud.Images.Plan
import AgentCloud.Images.Planning
import AgentCloud.Archives.Capturing
import AgentCloud.Archives.Rebasing
import AgentCloud.Archives.Repackaging
