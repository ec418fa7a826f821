import Rendezvous.JobQueue.Task
import Rendezvous.Main
import Rendezvous.Server.Visit
import Rendezvous.WorkerPool.Shift
import Rendezvous.Proofs.Bytes.Endian
import Rendezvous.Proofs.Relay.Eviction
import Rendezvous.Proofs.Relay.Relaying
import Rendezvous.Proofs.Relay.Replay
import Rendezvous.Proofs.Relay.Journal
import Rendezvous.Proofs.Relay.Accounts
import Rendezvous.Proofs.Relay.Nonces
import Rendezvous.Proofs.Relay.Turns
import Rendezvous.Proofs.Relay.Authentication
import Rendezvous.Proofs.Relay.Ledger
import Rendezvous.Proofs.Relay.Announcements
import Rendezvous.Proofs.Relay.Views
import Rendezvous.Proofs.Relay.Bystanders
import Rendezvous.Proofs.Relay.Pruning
import Rendezvous.Proofs.Relay.Admission
import Rendezvous.Proofs.Relay.Closing
import Rendezvous.Proofs.Relay.Reception
import Rendezvous.Proofs.Relay.Consistency
import Rendezvous.Proofs.Message.Exactness
import Rendezvous.Proofs.Message.Presentations
import Rendezvous.Proofs.Relay.Isolation
import Rendezvous.Proofs.Message.Kinds
import Rendezvous.Proofs.Relay.Draining
import Rendezvous.Proofs.Relay.Acceptance
import Rendezvous.Proofs.Path.Reuse
import Rendezvous.Proofs.Path.Succession
import Rendezvous.Proofs.Relay.Forwarding
import Rendezvous.Proofs.Relay.Departure
import Rendezvous.Proofs.Relay.Credentials
import Rendezvous.Proofs.Frame.Exactness
import Rendezvous.Proofs.JobQueue.Numbering
import Rendezvous.Proofs.SequenceNumber.Counting
import Rendezvous.Proofs.Path.Naming
import Rendezvous.Proofs.WorkerPool.Capacity
import Rendezvous.Proofs.WorkerPool.Runs
