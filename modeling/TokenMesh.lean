import TokenMesh.Controller.Run
import TokenMesh.Deployment
import TokenMesh.Experiment
import TokenMesh.Main
import TokenMesh.Node.Description
import TokenMesh.Traffic
import TokenMesh.Proofs.Network.Change
import TokenMesh.Proofs.Node.Reaction
import TokenMesh.Proofs.Network.Air
import TokenMesh.Proofs.Network.Effect
import TokenMesh.Proofs.Network.Run
import TokenMesh.Proofs.Network.Ledger
import TokenMesh.Proofs.Network.Timers
import TokenMesh.Proofs.Message.RoundTrip
import TokenMesh.Proofs.Network.Calm
import TokenMesh.Proofs.Network.Agreement
import TokenMesh.Proofs.Network.Frame
import TokenMesh.Proofs.Network.Delivery
import TokenMesh.Proofs.Network.Spread
import TokenMesh.Proofs.Network.Convergence
import TokenMesh.Proofs.Node.Reconciliation
import TokenMesh.Proofs.Network.Silence
import TokenMesh.Proofs.Network.Watch
import TokenMesh.Proofs.Network.Work
import TokenMesh.Proofs.Network.Ending
import TokenMesh.Proofs.Network.Shuttle
import TokenMesh.Proofs.Message.Canonical
import TokenMesh.Proofs.Node.ColdStart
import TokenMesh.Proofs.Topology.Search
import TokenMesh.Proofs.Network.Power
import TokenMesh.Proofs.Network.Victim
import TokenMesh.Proofs.Network.Partition
import TokenMesh.Proofs.Node.Outage
import TokenMesh.Proofs.Node.Contacts
import TokenMesh.Proofs.Network.Turn
import TokenMesh.Proofs.Network.Lossless
import TokenMesh.Proofs.Node.Walks
import TokenMesh.Proofs.Network.Walks
import TokenMesh.Proofs.Node.Exchange
import TokenMesh.Proofs.Network.Queries
import TokenMesh.Proofs.Network.Pauses
import TokenMesh.Proofs.Network.Plans
import TokenMesh.Proofs.Network.Order
import TokenMesh.Proofs.Network.Faults
import TokenMesh.Proofs.Node.Expiry
import TokenMesh.Proofs.Controller.Loop
import TokenMesh.Proofs.Controller.Sends
import TokenMesh.Proofs.Schedule
import TokenMesh.Proofs.Node.Hops
import TokenMesh.Proofs.Node.Offers
import TokenMesh.Proofs.Node.Memory
import TokenMesh.Proofs.Node.Conduct
import TokenMesh.Proofs.Network.Requests
import TokenMesh.Proofs.Topology.Connectivity
import TokenMesh.Proofs.Node.Accounts
import TokenMesh.Proofs.Message.Faults
import TokenMesh.Proofs.Node.Datagrams
import TokenMesh.Proofs.Topology.Neighbors
import TokenMesh.Proofs.Network.Senders
import TokenMesh.Proofs.Topology.Survival
import TokenMesh.Proofs.Saved.Results
