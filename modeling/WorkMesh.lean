import WorkMesh.Files.Assembly
import WorkMesh.AgentTeam.Lease
import WorkMesh.AgentTeam.Ingestion
import WorkMesh.AgentTeam.Backlog
import WorkMesh.AgentTeam.Fixpoint
import WorkMesh.AgentTeam.GapFree
import WorkMesh.AgentTeam.Redaction
import WorkMesh.Link.Replay
import WorkMesh.Link.SyncRefinement
import WorkMesh.Link.TaskFencing
import WorkMesh.Relay.EpochFencing
import WorkMesh.Relay.HandOver
import WorkMesh.Relay.Addressing
import WorkMesh.Role.History
import WorkMesh.Role.TwoPhase
import WorkMesh.Role.Committable
import WorkMesh.Gate.Checked
import WorkMesh.Account.Identity
import WorkMesh.Storage.Ledger
import WorkMesh.Cron.Running
import WorkMesh.Storage.Restart
import WorkMesh.Sandbox.Creation
import WorkMesh.Sandbox.Orphans
import WorkMesh.Sandbox.Following
import WorkMesh.Sandbox.Accounting
import WorkMesh.Gateway.Unbind
import WorkMesh.Gateway.Lockout
import WorkMesh.Waf.Observe
import WorkMesh.Sites.Atomic
import WorkMesh.Sites.Reach
import WorkMesh.Backup.Undone
import WorkMesh.Backup.Artifact
import WorkMesh.Mysql.Exact
import WorkMesh.Runtime.Saving
import WorkMesh.Runtime.Registry
import WorkMesh.Firewall.Resync
import WorkMesh.Firewall.Reorder
import WorkMesh.Link.FailedSave
import WorkMesh.Account.FailedSave
import WorkMesh.AgentTeam.Activation
import WorkMesh.Sandbox.CommandLine
import WorkMesh.Sandbox.Containment
import WorkMesh.Role.Nodes
import WorkMesh.Gateway.FailedLogin
import WorkMesh.Relay.Attempts
import WorkMesh.AgentTeam.Upload
import WorkMesh.AgentTeam.Idempotency
import WorkMesh.Cron.Argv
import WorkMesh.Waf.Priority
import WorkMesh.Encoding.Calendar
import WorkMesh.Cron.Schedule
import WorkMesh.Cron.Execution
import WorkMesh.Cron.Retention
import WorkMesh.Storage.ImportOnce
import WorkMesh.Stream.Closing
import WorkMesh.Runtime.RemovalSafety
import WorkMesh.AgentTeam.Decisions
