import McManager.Framework.Respects
import McManager.Services.Configuration
import McManager.Services.Restore
import McManager.Services.WorldMutations
import McManager.Guarantees.Finality
import McManager.Guarantees.Exclusion
import McManager.Guarantees.Idempotency
import McManager.Guarantees.Release
import McManager.Guarantees.Custody
import McManager.Guarantees.Independence
import McManager.Guarantees.Supervision
import McManager.Guarantees.Preservation
import McManager.Guarantees.RoundTrip
import McManager.Guarantees.Accounting
import McManager.Guarantees.Draining
import McManager.Guarantees.Honesty
import McManager.Guarantees.Retention
import McManager.Guarantees.Ports
import McManager.Guarantees.Placement
import McManager.Guarantees.Renaming
import McManager.Guarantees.Superadmins
import McManager.Guarantees.Lockout
import McManager.Guarantees.Authorization
import McManager.Guarantees.Streams
import McManager.Guarantees.Expiry
import McManager.Guarantees.Exits
import McManager.Guarantees.LeaderTab
import McManager.Guarantees.Devices
import McManager.Guarantees.Disabling
import McManager.Guarantees.Setup
import McManager.Guarantees.StepUp
import McManager.Guarantees.Acceptance
import McManager.Guarantees.Escalation
import McManager.Guarantees.Cadence
import McManager.Guarantees.Timeline
import McManager.Guarantees.Checkpoints
import McManager.Guarantees.Interruption
import McManager.Framework.Events
import McManager.Guarantees.TransferCap
import McManager.Guarantees.Rotation
import McManager.Guarantees.UserUpdates
import McManager.Guarantees.RconAnswers
import McManager.Guarantees.StorageGuard
import McManager.Guarantees.Confinement
import McManager.Guarantees.Provisioning
import McManager.Infrastructure.Tailing
import McManager.Guarantees.LogLines
import McManager.Guarantees.LogBuffer
import McManager.Guarantees.EditRecords
import McManager.Guarantees.MigrationOrder
import McManager.Guarantees.LogDelivery
import McManager.Guarantees.TreeTermination
import McManager.Guarantees.CaptureOutcomes
import McManager.Guarantees.EditChains
import McManager.Guarantees.Inboxes
import McManager.Guarantees.WorldStates
import McManager.Guarantees.EulaMarks
import McManager.Guarantees.Resumption
import McManager.Guarantees.Previews
import McManager.Framework.Layers
import McManager.Guarantees.Settings
