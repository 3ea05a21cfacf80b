import BoothFloor.Booth.Admission
import BoothFloor.Console
import BoothFloor.Datagram
import BoothFloor.Main
import BoothFloor.Notice.Form
import BoothFloor.Simulation
import BoothFloor.Proofs.Host.Admissions
import BoothFloor.Proofs.Host.News
import BoothFloor.Proofs.Host.Uptake
import BoothFloor.Proofs.Network.Sessions
import BoothFloor.Proofs.Node.Queued
import BoothFloor.Proofs.Node.Speech
import BoothFloor.Proofs.Node.Timers
import BoothFloor.Proofs.Simulation.Capacity
import BoothFloor.Proofs.Visitor.Consistent
import BoothFloor.Proofs.Message.RoundTrip
import BoothFloor.Proofs.Host.Ledger
import BoothFloor.Proofs.Simulation.Ledger
import BoothFloor.Proofs.Host.Addressees
import BoothFloor.Proofs.Floor.Lossless
import BoothFloor.Proofs.Simulation.Lossless
import BoothFloor.Proofs.Simulation.Ghosts
import BoothFloor.Proofs.Message.Grammar
import BoothFloor.Proofs.Visitor.Spent
import BoothFloor.Proofs.Node.Ceilings
import BoothFloor.Proofs.Node.Sweep
import BoothFloor.Proofs.Host.Turns
import BoothFloor.Proofs.Visitor.Selection
import BoothFloor.Proofs.Handoff
import BoothFloor.Proofs.Repetition
import BoothFloor.Proofs.Node.Expiry
import BoothFloor.Proofs.Visitor.Steering
import BoothFloor.Proofs.Message.Relay
import BoothFloor.Proofs.Checked.Node
import BoothFloor.Proofs.Node.Link
import BoothFloor.Proofs.Node.Noise
import BoothFloor.Proofs.Node.Chat
import BoothFloor.Proofs.Node.Company
import BoothFloor.Proofs.Node.Cadence
import BoothFloor.Proofs.Settings
import BoothFloor.Proofs.Simulation.Duration
import BoothFloor.Proofs.Simulation.Soundness
import BoothFloor.Proofs.Console
import BoothFloor.Proofs.Datagram
import BoothFloor.Proofs.Description
import BoothFloor.Proofs.Timers.Calls
import BoothFloor.Proofs.Sightings.Calls
import BoothFloor.Proofs.Sightings.Choice
