import RingCache.Flight.Caller
import RingCache.Group.Lookup
import RingCache.Main
import RingCache.Proofs.Flight.Sharing
import RingCache.Proofs.Group.Balance
import RingCache.Proofs.Group.Outcomes
import RingCache.Proofs.Lru.Refinement
import RingCache.Proofs.Ring.Entries
import RingCache.Proofs.Ring.Placement
import RingCache.Proofs.Group.Inventory
import RingCache.Proofs.Peer.Path
import RingCache.Proofs.Cluster.Members
import RingCache.Proofs.Cluster.Served
import RingCache.Proofs.Cluster.Visits
import RingCache.Proofs.Peer.Picks
import RingCache.Proofs.Cluster.OneHop
import RingCache.Proofs.Ring.Churn
import RingCache.Proofs.Peer.Owners
import RingCache.Proofs.Cluster.Reuse
import RingCache.Proofs.Peer.Dots
import RingCache.Proofs.Ring.Nodes
import RingCache.Proofs.Lru.Oversized
import RingCache.Proofs.Group.Alone
import RingCache.Proofs.Bench.Places
import RingCache.Proofs.Flight.Shadow
import RingCache.Proofs.Group.Shadow
import RingCache.Proofs.Group.Apart
import RingCache.Proofs.Peer.Address
import RingCache.Proofs.Text.Form
import RingCache.Proofs.Cluster.Answers
import RingCache.Proofs.Lru.Budgets
import RingCache.Proofs.Cluster.Queries
import RingCache.Proofs.Lru.Walk
import RingCache.Proofs.Number.Shortest
import RingCache.Proofs.Metrics.Format
import RingCache.Proofs.Cluster.Names
import RingCache.Proofs.Metrics.Page
import RingCache.Proofs.Metrics.Groups
import RingCache.Proofs.Cluster.Fetches
