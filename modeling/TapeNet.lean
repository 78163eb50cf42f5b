import TapeNet.Tape
import TapeNet.Shelf
import TapeNet.Instruction
import TapeNet.Machine
import TapeNet.ProgramText
import TapeNet.Plane.Point
import TapeNet.Plane.Grid
import TapeNet.Plane.Window
import TapeNet.Plane.Picture
import TapeNet.Plane.Search
import TapeNet.NounVerb
import TapeNet.SelfTest
import TapeNet.Arcade
import TapeNet.Scaffold
import TapeNet.Net.System
import TapeNet.Net.Station
import TapeNet.Net.Relay
import TapeNet.Net.Network
import TapeNet.Net.Topology
import TapeNet.Amplifier
import TapeNet.HullRobot
import TapeNet.RepairDroid
import TapeNet.Proofs.Net.Launch
import TapeNet.Proofs.Net.Progress
import TapeNet.Proofs.Machine.Atomicity
import TapeNet.Proofs.Machine.Flow
import TapeNet.Proofs.Machine.Padding
import TapeNet.Proofs.Net.Fifo
import TapeNet.Proofs.Net.Ledger
import TapeNet.Proofs.Net.StationStory
import TapeNet.Proofs.Net.RelayStory
import TapeNet.Proofs.Net.RemoteStory
import TapeNet.Proofs.Net.Traffic
import TapeNet.Proofs.Net.Confluence
import TapeNet.Proofs.Net.Standalone
import TapeNet.Proofs.Net.Composition
import TapeNet.Proofs.Net.Broadcast
import TapeNet.Proofs.Machine.LoopAmplifier
import TapeNet.Proofs.Net.FeedbackRing
import TapeNet.Proofs.Machine.Linked
import TapeNet.Proofs.Machine.Feeding
import TapeNet.Proofs.Machine.Resuming
import TapeNet.Proofs.Machine.Sessions
import TapeNet.Proofs.Machine.Residues
import TapeNet.Proofs.Net.Conservation
import TapeNet.Proofs.Net.Shutdown
import TapeNet.Proofs.Net.Dialogue
import TapeNet.Proofs.Net.Painting
import TapeNet.Proofs.Survey.WallFollowing
import TapeNet.Proofs.Survey.TreeArea
import TapeNet.Proofs.Tape.Chronicles
import TapeNet.Proofs.Survey.Exploring
import TapeNet.Proofs.Text.Numerals
import TapeNet.Proofs.Text.ProgramGrammar
import TapeNet.Proofs.Text.RoundTrip
import TapeNet.Proofs.Text.Files
import TapeNet.Proofs.Arcade.Drawings
import TapeNet.Proofs.Plane.Distances
import TapeNet.Proofs.Survey.OxygenDistances
import TapeNet.Proofs.Machine.Decoding
import TapeNet.Proofs.Machine.Footprint
import TapeNet.Proofs.Net.Closing
import TapeNet.Proofs.Net.Interference
import TapeNet.Proofs.Net.RelayDelivery
import TapeNet.Proofs.Net.RelayRelease
import TapeNet.Proofs.Net.Circuit
import TapeNet.Proofs.Net.SinglePass
import TapeNet.Proofs.Machine.Doubler
import TapeNet.Proofs.Net.DoublerLine
import TapeNet.Proofs.Search.NounVerbs
import TapeNet.Proofs.Search.BestOrdering
import TapeNet.Proofs.Camera.Printing
import TapeNet.Proofs.Plane.ReadingBack
import TapeNet.Proofs.Net.Refusals
import TapeNet.Proofs.Text.Files
import TapeNet.Proofs.Tape.Shelves
