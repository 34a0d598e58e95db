import Propagation.Config
import Propagation.Moment.Lemmas
import Propagation.Network.Dossier
import Propagation.Network.Joining
import Propagation.Delivery
import Propagation.Lifecycle
import Propagation.Store.Lemmas
import Propagation.Store.Scope
import Propagation.Tables.Lemmas
import Propagation.Transaction.Lemmas
import Propagation.Transmit.Plan
import Propagation.Proofs.Conflict
import Propagation.Proofs.Replay
import Propagation.Proofs.Finality
import Propagation.Proofs.ExactlyOnce
import Propagation.Proofs.Looking
import Propagation.Proofs.Integrity
import Propagation.Proofs.Descent
import Propagation.Proofs.Resolving
import Propagation.Proofs.Sending
import Propagation.Proofs.Refusal
import Propagation.Proofs.Overwriting
import Propagation.Proofs.Reindexing
import Propagation.Proofs.Publication
import Propagation.Proofs.Attempts
import Propagation.Proofs.Deletion
import Propagation.Proofs.Seniority
import Propagation.Proofs.Joining
import Propagation.Proofs.Chronicle
import Propagation.Proofs.Edge
import Propagation.Proofs.Ownership
import Propagation.Proofs.Alike
import Propagation.Proofs.Commuting
import Propagation.Proofs.Codecs
import Propagation.Proofs.Provenance
import Propagation.Proofs.Searching
import Propagation.Proofs.Neighbourhood
import Propagation.Proofs.Degrees
import Propagation.Proofs.Fanout
import Propagation.Proofs.Rejoining
import Propagation.Proofs.Copying
import Propagation.Proofs.Posting
import Propagation.Proofs.Growth
import Propagation.Proofs.Outreach
import Propagation.Proofs.Broadcast
import Propagation.Proofs.Passage
import Propagation.Proofs.Leftover
import Propagation.Proofs.Ticking
import Propagation.Proofs.Omission
import Propagation.Proofs.Settings
import Propagation.Proofs.Versions
import Propagation.Proofs.Recording
import Propagation.Proofs.Handover
