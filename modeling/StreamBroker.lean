import StreamBroker.Operation
import StreamBroker.Proofs.Calls
import StreamBroker.Proofs.Move
import StreamBroker.Proofs.History
import StreamBroker.Proofs.Handles
import StreamBroker.Proofs.Isolation
import StreamBroker.Proofs.Lifecycle
import StreamBroker.Proofs.Table
import StreamBroker.Proofs.Guard
import StreamBroker.Proofs.Inert
import StreamBroker.Proofs.Routing
import StreamBroker.Proofs.Stacks
import StreamBroker.Proofs.Standings
import StreamBroker.Proofs.Passage
import StreamBroker.Proofs.Leases
import StreamBroker.Proofs.Room
import StreamBroker.Proofs.Observers
import StreamBroker.Proofs.Allotment
import StreamBroker.Proofs.GivingBack
import StreamBroker.Proofs.Teardown
import StreamBroker.Proofs.Writes
import StreamBroker.Proofs.Queue
import StreamBroker.Proofs.Locality
import StreamBroker.Proofs.Commuting
import StreamBroker.Proofs.Walks
import StreamBroker.Proofs.Growth
import StreamBroker.Proofs.Uses
import StreamBroker.Proofs.Descriptors
import StreamBroker.Proofs.Declining
import StreamBroker.Proofs.Draining
import StreamBroker.Proofs.RoundTrip
import StreamBroker.Proofs.Appending
import StreamBroker.Proofs.Integrity
import StreamBroker.Proofs.Existence
import StreamBroker.Proofs.Reading
import StreamBroker.Proofs.Attribution
