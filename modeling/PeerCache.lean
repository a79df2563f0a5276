import PeerCache.Checksum.Elementary
import PeerCache.Config.Load
import PeerCache.Log.Console
import PeerCache.Proofs.Flight.SingleFlight
import PeerCache.Proofs.Flight.Agreement
import PeerCache.Proofs.Flight.Waiting
import PeerCache.Proofs.Flight.CopyFailure
import PeerCache.Proofs.Flight.Independence
import PeerCache.Proofs.Cache.FailingHook
import PeerCache.Proofs.Cache.Inclusion
import PeerCache.Proofs.Cache.Accounting
import PeerCache.Proofs.Ring.Placement
import PeerCache.Proofs.Ring.Remapping
import PeerCache.Proofs.Cluster.Transparency
import PeerCache.Proofs.Cluster.Remembering
import PeerCache.Proofs.Ring.Departure
import PeerCache.Proofs.Ring.Publication
import PeerCache.Proofs.Cache.Guarded
import PeerCache.Proofs.Ring.FailedUpdate
import PeerCache.Proofs.Ring.Contested
import PeerCache.Proofs.Ring.Renewal
import PeerCache.Proofs.Ring.Labels
import PeerCache.Proofs.Ring.Unsettled
import PeerCache.Proofs.Ring.Inventory
import PeerCache.Proofs.Cache.Consistency
import PeerCache.Proofs.Flight.Draining
import PeerCache.Proofs.Flight.Passive
import PeerCache.Proofs.Flight.Retrying
import PeerCache.Proofs.Cache.Traversal
import PeerCache.Proofs.Cache.Arena
import PeerCache.Proofs.Cache.Filling
import PeerCache.Proofs.Config.Building
