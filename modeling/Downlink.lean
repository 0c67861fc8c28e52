import Downlink.Station
import Downlink.Text.Describe
import Downlink.Roster.Dispatch
import Downlink.Proofs.Roster
import Downlink.Proofs.Pairs
import Downlink.Proofs.Dispatch
import Downlink.Proofs.Dialer
import Downlink.Proofs.OneSocket
import Downlink.Proofs.Schedule
import Downlink.Proofs.Socket
import Downlink.Proofs.Session
import Downlink.Proofs.Link
import Downlink.Proofs.Transcript
import Downlink.Proofs.Agreement
import Downlink.Proofs.Conversation
import Downlink.Proofs.Wire
import Downlink.Proofs.Barrier
import Downlink.Proofs.Resubscription
import Downlink.Proofs.Matching
import Downlink.Proofs.Updates
import Downlink.Proofs.Members
import Downlink.Proofs.Handles
import Downlink.Proofs.Delivery
import Downlink.Proofs.Images
import Downlink.Proofs.FailedFetch
import Downlink.Proofs.AnyOrder
import Downlink.Proofs.Listeners
import Downlink.Proofs.Stale
import Downlink.Proofs.Convergence
import Downlink.Proofs.Numerals
import Downlink.Proofs.Requests
import Downlink.Proofs.Replies
import Downlink.Proofs.Pushes
import Downlink.Proofs.Naming
import Downlink.Proofs.Since
import Downlink.Proofs.Refusals
import Downlink.Proofs.Malformed
import Downlink.Proofs.Task
import Downlink.Proofs.Timer
import Downlink.Proofs.TakeDown
import Downlink.Proofs.Walk
import Downlink.Proofs.Positions
import Downlink.Proofs.Grammar
import Downlink.Proofs.Capacity
import Downlink.Proofs.Eviction
import Downlink.Proofs.Toggling
import Downlink.Proofs.Broadcast
import Downlink.Proofs.Loop
import Downlink.Proofs.Settling
import Downlink.Proofs.Station
