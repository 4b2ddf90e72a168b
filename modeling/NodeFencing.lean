import NodeFencing.Json.Write
import NodeFencing.Leader.Replica
import NodeFencing.Monitor.Memory
import NodeFencing.Proofs.Backoff
import NodeFencing.Proofs.Config.Gathering
import NodeFencing.Proofs.Escalation.Walk
import NodeFencing.Proofs.Leader.Custody
import NodeFencing.Proofs.Leader.Exclusion
import NodeFencing.Proofs.Leader.History
import NodeFencing.Proofs.Leader.Tenure
import NodeFencing.Proofs.Method.Build
import NodeFencing.Proofs.Method.Deadline
import NodeFencing.Proofs.Method.Declared
import NodeFencing.Proofs.Method.Found
import NodeFencing.Proofs.Method.Reserved
import NodeFencing.Proofs.Method.Secret
import NodeFencing.Proofs.Method.State
import NodeFencing.Proofs.Method.Wiring
import NodeFencing.Proofs.Monitor.Assessment
import NodeFencing.Proofs.Monitor.Collision
import NodeFencing.Proofs.Monitor.Grounds
import NodeFencing.Proofs.Monitor.OnePerNode
import NodeFencing.Proofs.Monitor.Settlement
import NodeFencing.Proofs.Monitor.Withdrawal
import NodeFencing.Proofs.Naming
import NodeFencing.Proofs.Naming.Legal
import NodeFencing.Proofs.Naming.Normal
import NodeFencing.Proofs.Program.Alone
import NodeFencing.Proofs.Program.Exchange
import NodeFencing.Proofs.Program.Record
import NodeFencing.Proofs.Reconcile.Adoption
import NodeFencing.Proofs.Reconcile.Audit
import NodeFencing.Proofs.Reconcile.Consistency
import NodeFencing.Proofs.Reconcile.Exhaustion
import NodeFencing.Proofs.Reconcile.FollowUp
import NodeFencing.Proofs.Reconcile.Gates
import NodeFencing.Proofs.Reconcile.History
import NodeFencing.Proofs.Reconcile.Landing
import NodeFencing.Proofs.Reconcile.Outcome
import NodeFencing.Proofs.Reconcile.Ownership
import NodeFencing.Proofs.Reconcile.Persistence
import NodeFencing.Proofs.Reconcile.Repeat
import NodeFencing.Proofs.Reconcile.Reselection
import NodeFencing.Proofs.Reconcile.Unrecorded
import NodeFencing.Proofs.Registry.History
import NodeFencing.Proofs.Registry.Selection
import NodeFencing.Proofs.Request.Patch
import NodeFencing.Proofs.Source
import NodeFencing.Reconcile.Memory
import NodeFencing.Request.Definition
import NodeFencing.Settings.Decode
import NodeFencing.Settings.Validate
import NodeFencing.Simulation.Course
