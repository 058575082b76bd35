import Gibson.Brain.Codec
import Gibson.Brain.Fidelity
import Gibson.Brain.Fencing
import Gibson.Brain.SliceAgreement
import Gibson.Brain.Isolation
import Gibson.Brain.Settlement
import Gibson.Brain.FlightRecorder
import Gibson.Brain.Lifecycle
import Gibson.Brain.Restart
import Gibson.Brain.Liveness
import Gibson.Brain.Execution
import Gibson.Brain.Ambient
import Gibson.Mission.Gating
import Gibson.Mission.Soundness
import Gibson.Mission.FanOut
import Gibson.Mission.Originate
import Gibson.Belief.BoundedSlice
import Gibson.Belief.Ground
import Gibson.Datapool.History
import Gibson.Platform.PageToken
import Gibson.Platform.Budget
import Gibson.Platform.WatchHub
import Gibson.Platform.TaskCounter
import Gibson.Banks.Holders
import Gibson.TenantRole.Writers
import Gibson.Saga.Attempts
import Gibson.Saga.Teardown
import Gibson.TimelineArchive.Retention
import Gibson.WorkQueue.Redelivery
import Gibson.WorkQueue.Sweep
import Gibson.WorkQueue.Notify
import Gibson.WorkQueue.Claimant
import Gibson.WorkQueue.Liveness
import Gibson.Runs.Accounting
import Gibson.Runs.Quota
import Gibson.Inbox.Delivery
import Gibson.Tools.Identifier
import Gibson.Backup.KeyWrap
import Gibson.Secrets.Broker
import Gibson.Secrets.Vault
import Gibson.Audit.Exported
import Gibson.Audit.Verified
import Gibson.CapabilityGrant.Store
import Gibson.Datapool.Eviction
import Gibson.Audit.Writer
import Gibson.ConnectorAuth.Refresh
import Gibson.Extauthz.SingleUse
import Gibson.Extauthz.Transparent
import Gibson.Idempotency.Store
import Gibson.Ratelimit.Window
