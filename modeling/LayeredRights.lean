import LayeredRights.CommandLine
import LayeredRights.CommandLine.Arguments
import LayeredRights.Decimal.Shortest
import LayeredRights.File.Error
import LayeredRights.File.Job
import LayeredRights.File.Tree
import LayeredRights.Json
import LayeredRights.Json.Reader
import LayeredRights.Json.Record
import LayeredRights.Json.Token
import LayeredRights.Kdl.Character
import LayeredRights.Kdl.Node
import LayeredRights.Kdl.Node.Printer
import LayeredRights.Kdl.Node.Reader
import LayeredRights.Kdl.TextBlock
import LayeredRights.Kdl.Token
import LayeredRights.Kdl.Word
import LayeredRights.Main
import LayeredRights.NameSet
import LayeredRights.Rights.Configuration
import LayeredRights.Rights.Decision
import LayeredRights.Rights.Directory
import LayeredRights.Rights.Document
import LayeredRights.Rights.Document.Printer
import LayeredRights.Rights.Document.Reader
import LayeredRights.Rights.DocumentFiles
import LayeredRights.Rights.Documents
import LayeredRights.Rights.Engine
import LayeredRights.Rights.Entry
import LayeredRights.Rights.Error
import LayeredRights.Rights.Generation
import LayeredRights.Rights.Interchange
import LayeredRights.Rights.Merge
import LayeredRights.Rights.Notice
import LayeredRights.Rights.Policy
import LayeredRights.Rights.Registry
import LayeredRights.Rights.Service
import LayeredRights.Rights.Store
import LayeredRights.Rights.Summary
import LayeredRights.Rights.Validation
import LayeredRights.Scenario.FileWorld
import LayeredRights.Scenario.MemoryDocuments
import LayeredRights.Scenario.ScriptedDirectory
import LayeredRights.Scenario.Stage
import LayeredRights.Settings
import LayeredRights.Settings.Key
import LayeredRights.Settings.Tree
import LayeredRights.Text.Blank
import LayeredRights.Text.Cut
import LayeredRights.Text.Digit
import LayeredRights.Text.Quoted
import LayeredRights.Text.Replacement
import LayeredRights.Toml.Moment
import LayeredRights.Toml.Reader
import LayeredRights.Toml.Scalar
import LayeredRights.Toml.Token
import LayeredRights.Toml.Value
import LayeredRights.Proofs.Runner
import LayeredRights.Proofs.Store.Operations
import LayeredRights.Proofs.Decision
import LayeredRights.Proofs.Resolver.Coherence
import LayeredRights.Proofs.Resolver.Answering
import LayeredRights.Proofs.Resolver.CacheFree
import LayeredRights.Proofs.Merge
import LayeredRights.Proofs.Edits
import LayeredRights.Proofs.Delivery.Turns
import LayeredRights.Proofs.Delivery.Chronicle
import LayeredRights.Proofs.Delivery.Announcements
import LayeredRights.Proofs.Store.Saving
import LayeredRights.Proofs.Delivery.Commits
import LayeredRights.Proofs.Store.TwoLayers
import LayeredRights.Proofs.Kdl.Scanning
import LayeredRights.Proofs.Kdl.Nodes
import LayeredRights.Proofs.Document.RoundTrip
import LayeredRights.Proofs.File.Frames
import LayeredRights.Proofs.File.Places
import LayeredRights.Proofs.File.Copying
import LayeredRights.Proofs.Document.Files
import LayeredRights.Proofs.Document.Durability
import LayeredRights.Proofs.Document.Intact
import LayeredRights.Proofs.Store.Journal
import LayeredRights.Proofs.Document.Lockout
import LayeredRights.Proofs.Resolver.Outage
import LayeredRights.Proofs.Delivery.Residence
import LayeredRights.Proofs.Delivery.Installing
import LayeredRights.Proofs.Delivery.Changes
import LayeredRights.Proofs.Delivery.Order
import LayeredRights.Proofs.File.Faults
import LayeredRights.Proofs.Document.Crash
import LayeredRights.Proofs.Layers
import LayeredRights.Proofs.Document.Export
import LayeredRights.Proofs.Service
import LayeredRights.Proofs.CommandLine.Tasks
import LayeredRights.Proofs.CommandLine.Agreement
import LayeredRights.Proofs.Rearrangement
import LayeredRights.Proofs.Document.Grammar
import LayeredRights.Proofs.Document.Listings
import LayeredRights.Proofs.Resolver.Retention
import LayeredRights.Proofs.Resolver.Provenance
import LayeredRights.Proofs.Resolver.Recovery
import LayeredRights.Proofs.Reach
import LayeredRights.Proofs.Document.Restoring
import LayeredRights.Proofs.Delivery.Registrations
import LayeredRights.Proofs.Delivery.Counts
import LayeredRights.Proofs.Resolver.Covering
import LayeredRights.Proofs.Resolver.Effectiveness
import LayeredRights.Proofs.Offences
import LayeredRights.Proofs.Json.Numeral
import LayeredRights.Proofs.Json.Spelling
import LayeredRights.Proofs.Json.Values
import LayeredRights.Proofs.Directory.Union
import LayeredRights.Proofs.Json.Records
import LayeredRights.Proofs.Directory.UsersFile
