import FlagPoll.Connect
import FlagPoll.Completion.Session
import FlagPoll.Json.Writer
import FlagPoll.Listeners.Session
import FlagPoll.Schedule
import FlagPoll.Synchronizer.Step
import FlagPoll.Proofs.Lock.Wakeup
import FlagPoll.Proofs.Synchronizer.Delivery
import FlagPoll.Proofs.Synchronizer.Fetching
import FlagPoll.Proofs.Synchronizer.Storing
import FlagPoll.Proofs.Synchronizer.Landing
import FlagPoll.Proofs.Synchronizer.Hush
import FlagPoll.Proofs.Synchronizer.Observers
import FlagPoll.Proofs.Synchronizer.Notification
import FlagPoll.Proofs.Completion
import FlagPoll.Proofs.Recall
import FlagPoll.Proofs.Payload
import FlagPoll.Proofs.Schedule
import FlagPoll.Proofs.Synchronizer.Floor
import FlagPoll.Proofs.Synchronizer.Failing
import FlagPoll.Proofs.Synchronizer.Refusing
import FlagPoll.Proofs.Snapshot
import FlagPoll.Proofs.Store
import FlagPoll.Proofs.Synchronizer.Chronicle
import FlagPoll.Proofs.Synchronizer.Unreadable
import FlagPoll.Proofs.Listeners
import FlagPoll.Proofs.Headers
import FlagPoll.Proofs.BareTarget
import FlagPoll.Proofs.Synchronizer.Requesting
