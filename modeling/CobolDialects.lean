import CobolDialects.Main
import CobolDialects.Session.Run
import CobolDialects.Proofs.Json.Canonical
import CobolDialects.Proofs.Json.Meaning
import CobolDialects.Proofs.Text.Encoding
import CobolDialects.Proofs.Json.Spacing
import CobolDialects.Proofs.Json.Parts
import CobolDialects.Proofs.Json.Reader
import CobolDialects.Proofs.Json.RoundTrip
import CobolDialects.Proofs.Catalog.Codec
import CobolDialects.Proofs.Catalog.Registration
import CobolDialects.Proofs.Catalog.Laws
import CobolDialects.Proofs.Catalog.History
import CobolDialects.Proofs.Catalog.Interleaving
import CobolDialects.Proofs.FileSystem.Change
import CobolDialects.Proofs.FileSystem.Directories
import CobolDialects.Proofs.FileSystem.Paths
import CobolDialects.Proofs.FileSystem.Chains
import CobolDialects.Proofs.Locations
import CobolDialects.Proofs.FileSystem.Alike
import CobolDialects.Proofs.Settings.Parents
import CobolDialects.Proofs.Settings.Failure
import CobolDialects.Proofs.Settings.Save
import CobolDialects.Proofs.Settings.File
import CobolDialects.Proofs.Settings.Operation
import CobolDialects.Proofs.Settings.Rewriting
import CobolDialects.Proofs.Settings.DatabaseFile
import CobolDialects.Proofs.Settings.Agreement
import CobolDialects.Proofs.Engine.Attempt
import CobolDialects.Proofs.FileSystem.Sound
import CobolDialects.Proofs.Engine.Sound
import CobolDialects.Proofs.Engine.Settling
import CobolDialects.Proofs.Engine.Access
import CobolDialects.Proofs.Engine.Statement
import CobolDialects.Proofs.Engine.Opening
import CobolDialects.Proofs.Engine.Understanding
import CobolDialects.Proofs.Engine.Unfailing
import CobolDialects.Proofs.FileSystem.Kinds
import CobolDialects.Proofs.FileSystem.Enclosing
import CobolDialects.Proofs.Json.Numbers
import CobolDialects.Proofs.Json.Nesting
import CobolDialects.Proofs.Settings.Writers
import CobolDialects.Proofs.Settings.Temporaries
import CobolDialects.Proofs.Settings.Snapshots
import CobolDialects.Proofs.Settings.Rows
import CobolDialects.Proofs.Settings.Again
import CobolDialects.Proofs.Settings.Replacing
import CobolDialects.Proofs.Settings.Separation
import CobolDialects.Proofs.Settings.Keys
import CobolDialects.Proofs.Catalog.Calls
import CobolDialects.Proofs.Catalog.Announcements
import CobolDialects.Proofs.Catalog.Stores
import CobolDialects.Proofs.Catalog.Shape
import CobolDialects.Proofs.Catalog.Elements
import CobolDialects.Proofs.Catalog.Acceptance
import CobolDialects.Proofs.Settings.Reading
import CobolDialects.Proofs.Settings.Readers
import CobolDialects.Proofs.Text.Decoding
import CobolDialects.Proofs.FileSystem.Spots
import CobolDialects.Proofs.FileSystem.Occupied
import CobolDialects.Proofs.Engine.Site
import CobolDialects.Proofs.Engine.Sharing
import CobolDialects.Proofs.Engine.Joining
import CobolDialects.Proofs.Engine.Adopting
import CobolDialects.Proofs.Settings.Supply
import CobolDialects.Proofs.Settings.Handles
import CobolDialects.Proofs.FileSystem.Regions
import CobolDialects.Proofs.FileSystem.Mirrors
import CobolDialects.Proofs.FileSystem.MirroredCalls
import CobolDialects.Proofs.Engine.Reading
import CobolDialects.Proofs.Engine.Learning
import CobolDialects.Proofs.Engine.Company
import CobolDialects.Proofs.Engine.Finding
import CobolDialects.Proofs.Engine.Obstacles
import CobolDialects.Proofs.Engine.Mirrors
import CobolDialects.Proofs.Engine.Mirrored
import CobolDialects.Proofs.Engine.MirroredStatements
import CobolDialects.Proofs.Settings.Shapes
import CobolDialects.Proofs.Settings.Mirrored
import CobolDialects.Proofs.CommandLine.Replies
import CobolDialects.Proofs.CommandLine.Listing
import CobolDialects.Proofs.CommandLine.Running
import CobolDialects.Proofs.CommandLine.Documents
import CobolDialects.Proofs.CommandLine.Filtering
import CobolDialects.Proofs.CommandLine.Selection
import CobolDialects.Proofs.CommandLine.LogLines
import CobolDialects.Proofs.CommandLine.Commands
import CobolDialects.Proofs.CommandLine.Sinks
import CobolDialects.Proofs.Settings.Layout
