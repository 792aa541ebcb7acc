import QuorumStore.Cluster
import QuorumStore.Configuration.Client
import QuorumStore.Configuration.File
import QuorumStore.Configuration.Source
import QuorumStore.Console
import QuorumStore.Duration
import QuorumStore.Endpoint
import QuorumStore.Endpoint.Address
import QuorumStore.FanOut
import QuorumStore.Flags
import QuorumStore.Flags.Programs
import QuorumStore.Identifier
import QuorumStore.Json
import QuorumStore.Json.Number
import QuorumStore.Json.Reader
import QuorumStore.Json.Shape
import QuorumStore.Json.Stream
import QuorumStore.Level
import QuorumStore.Main
import QuorumStore.Message
import QuorumStore.Metrics
import QuorumStore.Metrics.Exposition
import QuorumStore.Metrics.Record
import QuorumStore.Network
import QuorumStore.Operation
import QuorumStore.ParseError
import QuorumStore.Policy
import QuorumStore.Proofs.Cluster.Asking
import QuorumStore.Proofs.Cluster.Calls
import QuorumStore.Proofs.Cluster.FanOut
import QuorumStore.Proofs.Cluster.Isolation
import QuorumStore.Proofs.Cluster.Turns
import QuorumStore.Proofs.Cluster.Verdict
import QuorumStore.Proofs.Configuration.Names
import QuorumStore.Proofs.Endpoint.Written
import QuorumStore.Proofs.FanOut.Tally
import QuorumStore.Proofs.Json.Tokens
import QuorumStore.Proofs.Json.Values
import QuorumStore.Proofs.Replica.Connection
import QuorumStore.Proofs.Replica.Convergence
import QuorumStore.Proofs.Replica.Offers
import QuorumStore.Proofs.Session.Counting
import QuorumStore.Proofs.Session.Effects
import QuorumStore.Proofs.Session.Guards
import QuorumStore.Proofs.Session.Isolation
import QuorumStore.Proofs.Session.Keys
import QuorumStore.Proofs.Session.RemoteErrors
import QuorumStore.Proofs.Session.Status
import QuorumStore.Proofs.Shell.Dictionary
import QuorumStore.Proofs.Shell.Pieces
import QuorumStore.Proofs.Shell.Refinement
import QuorumStore.Proofs.Shell.StatTable
import QuorumStore.Proofs.Simulation.Isolation
import QuorumStore.Proofs.System.Canonical
import QuorumStore.Proofs.System.Causality
import QuorumStore.Proofs.System.Counting
import QuorumStore.Proofs.System.Deleted
import QuorumStore.Proofs.System.Discipline
import QuorumStore.Proofs.System.Isolation
import QuorumStore.Proofs.System.Past
import QuorumStore.Proofs.System.Quorum
import QuorumStore.Proofs.System.Readback
import QuorumStore.Proofs.System.RemoteErrors
import QuorumStore.Proofs.System.Repair
import QuorumStore.Proofs.System.Run
import QuorumStore.Proofs.Text.Numeral
import QuorumStore.Proofs.Text.Utf8
import QuorumStore.Proofs.Version.Arrival
import QuorumStore.Proofs.Version.Frontier
import QuorumStore.Proofs.Version.HighestNode
import QuorumStore.Proofs.Version.Padding
import QuorumStore.Proofs.VersionVector.Canonical
import QuorumStore.Proofs.VersionVector.Laws
import QuorumStore.Proofs.VersionVector.Listing
import QuorumStore.Proofs.VersionVector.Order
import QuorumStore.Proofs.Wire.Forms
import QuorumStore.Proofs.Wire.Lines
import QuorumStore.Proofs.Wire.Messages
import QuorumStore.Replica
import QuorumStore.Replica.Connection
import QuorumStore.ReplicaSet
import QuorumStore.Session
import QuorumStore.Shell
import QuorumStore.Shell.Command
import QuorumStore.Shell.StatTable
import QuorumStore.Shell.Tokens
import QuorumStore.Simulation
import QuorumStore.Simulation.Disturbance
import QuorumStore.Socket
import QuorumStore.Table
import QuorumStore.Text.Blank
import QuorumStore.Text.Numeral
import QuorumStore.Text.Quoted
import QuorumStore.Text.Unseen
import QuorumStore.Text.Utf8
import QuorumStore.Version
import QuorumStore.Version.Reconcile
import QuorumStore.VersionVector
import QuorumStore.Wire.Lines
import QuorumStore.Wire.Message
import QuorumStore.Wire.Vector
import QuorumStore.Yaml.Cursor
import QuorumStore.Yaml.Node
import QuorumStore.Yaml.Node.Grammar
import QuorumStore.Yaml.Shape
import QuorumStore.Yaml.Token
import QuorumStore.Yaml.Token.Block
import QuorumStore.Yaml.Token.Plain
import QuorumStore.Yaml.Token.Property
import QuorumStore.Yaml.Token.Quoted
import QuorumStore.Yaml.Token.Space
import QuorumStore.Yaml.Token.Stream
