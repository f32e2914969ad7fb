import ObjectBus.Audit.Log
import ObjectBus.Audit.Note
import ObjectBus.Audit.Record
import ObjectBus.Broker.Basic
import ObjectBus.Broker.Discovery
import ObjectBus.Broker.Drain
import ObjectBus.Broker.Feed
import ObjectBus.Broker.Frame
import ObjectBus.Broker.Housekeeping
import ObjectBus.Broker.Publish
import ObjectBus.Broker.Types
import ObjectBus.Cache.Container
import ObjectBus.Channel
import ObjectBus.CommandLine.Address
import ObjectBus.CommandLine.Arguments
import ObjectBus.CommandLine.Client
import ObjectBus.CommandLine.Hosting
import ObjectBus.CommandLine.Join
import ObjectBus.CommandLine.Logging
import ObjectBus.CommandLine.Manual
import ObjectBus.CommandLine.Offline
import ObjectBus.CommandLine.Report
import ObjectBus.CommandLine.Serve
import ObjectBus.CommandLine.Socket
import ObjectBus.CommandLine.System
import ObjectBus.Config
import ObjectBus.Connection
import ObjectBus.Dispatcher
import ObjectBus.Error
import ObjectBus.ExactJson.Arrangement
import ObjectBus.ExactJson.Broker
import ObjectBus.ExactJson.Connection
import ObjectBus.ExactJson.Error
import ObjectBus.ExactJson.Event
import ObjectBus.ExactJson.Transmission
import ObjectBus.ExactJson.Value
import ObjectBus.Group
import ObjectBus.Guest.Basic
import ObjectBus.Guest.Call
import ObjectBus.Host
import ObjectBus.Host.Outbox
import ObjectBus.Inspection
import ObjectBus.Json.Basic
import ObjectBus.Json.Text
import ObjectBus.Json.Tree
import ObjectBus.KeyedList
import ObjectBus.Main
import ObjectBus.Number.Binary64
import ObjectBus.Number.Shortest
import ObjectBus.Object
import ObjectBus.Proofs.Audit.Log
import ObjectBus.Proofs.Audit.Record
import ObjectBus.Proofs.Broker.Admission
import ObjectBus.Proofs.Broker.Agreement
import ObjectBus.Proofs.Broker.Announcements
import ObjectBus.Proofs.Broker.Authority
import ObjectBus.Proofs.Broker.Authorship
import ObjectBus.Proofs.Broker.Bystander
import ObjectBus.Proofs.Broker.Call
import ObjectBus.Proofs.Broker.Candour
import ObjectBus.Proofs.Broker.Catalogue
import ObjectBus.Proofs.Broker.Cleanup
import ObjectBus.Proofs.Broker.Clearing
import ObjectBus.Proofs.Broker.Convergence
import ObjectBus.Proofs.Broker.Courses
import ObjectBus.Proofs.Broker.Deeds
import ObjectBus.Proofs.Broker.Departures
import ObjectBus.Proofs.Broker.Discovery
import ObjectBus.Proofs.Broker.Drain
import ObjectBus.Proofs.Broker.DrainPoints
import ObjectBus.Proofs.Broker.Effects
import ObjectBus.Proofs.Broker.Endurance
import ObjectBus.Proofs.Broker.Evolution
import ObjectBus.Proofs.Broker.Fanout
import ObjectBus.Proofs.Broker.Frames
import ObjectBus.Proofs.Broker.HostRecords
import ObjectBus.Proofs.Broker.Imports
import ObjectBus.Proofs.Broker.Lives
import ObjectBus.Proofs.Broker.Marks
import ObjectBus.Proofs.Broker.Mirror
import ObjectBus.Proofs.Broker.Numbers
import ObjectBus.Proofs.Broker.Orphans
import ObjectBus.Proofs.Broker.Outcomes
import ObjectBus.Proofs.Broker.Partings
import ObjectBus.Proofs.Broker.Parts
import ObjectBus.Proofs.Broker.PeerRecords
import ObjectBus.Proofs.Broker.Preload
import ObjectBus.Proofs.Broker.Publish
import ObjectBus.Proofs.Broker.Refusal
import ObjectBus.Proofs.Broker.Replay
import ObjectBus.Proofs.Broker.Retraction
import ObjectBus.Proofs.Broker.Roster
import ObjectBus.Proofs.Broker.Rounds
import ObjectBus.Proofs.Broker.Run
import ObjectBus.Proofs.Broker.Shutdown
import ObjectBus.Proofs.Broker.Silence
import ObjectBus.Proofs.Broker.Soundness
import ObjectBus.Proofs.Broker.StateEvents
import ObjectBus.Proofs.Broker.Step
import ObjectBus.Proofs.Broker.Sweeping
import ObjectBus.Proofs.Broker.Tables
import ObjectBus.Proofs.Broker.Tending
import ObjectBus.Proofs.Broker.Types
import ObjectBus.Proofs.Broker.Unison
import ObjectBus.Proofs.Cache.Container
import ObjectBus.Proofs.Connection
import ObjectBus.Proofs.Connection.Discipline
import ObjectBus.Proofs.Connection.Handshake
import ObjectBus.Proofs.Dispatcher.Mirror
import ObjectBus.Proofs.Group
import ObjectBus.Proofs.Guest.Agreement
import ObjectBus.Proofs.Guest.Answers
import ObjectBus.Proofs.Guest.Conversation
import ObjectBus.Proofs.Guest.Deliveries
import ObjectBus.Proofs.Guest.Discovering
import ObjectBus.Proofs.Guest.Exchange
import ObjectBus.Proofs.Guest.Link
import ObjectBus.Proofs.Guest.Waiting
import ObjectBus.Proofs.Json.Finite
import ObjectBus.Proofs.Json.Reading
import ObjectBus.Proofs.Json.Written
import ObjectBus.Proofs.Number.Binary64
import ObjectBus.Proofs.Object.Merge
import ObjectBus.Proofs.Schema.Conformance
import ObjectBus.Proofs.Schema.Conversion
import ObjectBus.Proofs.Schema.Discovery
import ObjectBus.Proofs.Time.Reader
import ObjectBus.Proofs.Wire.Basic
import ObjectBus.Proofs.Wire.Transmission
import ObjectBus.PropertySet
import ObjectBus.Protocol.Builtin
import ObjectBus.Protocol.ConnectionState
import ObjectBus.Protocol.Control
import ObjectBus.Protocol.Transmission
import ObjectBus.Schema.Basic
import ObjectBus.Schema.Definition
import ObjectBus.Schema.Kind
import ObjectBus.Schema.Registry
import ObjectBus.SortedMap
import ObjectBus.Text.Blank
import ObjectBus.Text.ExtendingMark
import ObjectBus.Text.Quoted
import ObjectBus.Text.Unprintable
import ObjectBus.Time.Clock
import ObjectBus.Time.Instant
import ObjectBus.Time.Reader
import ObjectBus.Time.Text
import ObjectBus.Value
import ObjectBus.Wire.Basic
import ObjectBus.Wire.Framing
import ObjectBus.Wire.Schema
import ObjectBus.Wire.Transmission
