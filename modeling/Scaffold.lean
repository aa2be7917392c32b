import Scaffold.Field.Definition
import Scaffold.Main
import Scaffold.Proofs.Artifact.SchemaOrder
import Scaffold.Proofs.Generation.Registration
import Scaffold.Proofs.Recovery.Outline
import Scaffold.Proofs.Recovery.RoundTrip
import Scaffold.Proofs.Json.Numbers
import Scaffold.Proofs.Json.Reading
import Scaffold.Proofs.Json.Documents
import Scaffold.Proofs.Collection.Folders
import Scaffold.Proofs.Collection.Sharing
import Scaffold.Proofs.Remote.Sync
import Scaffold.Proofs.OpenApi.Modules
import Scaffold.Proofs.Disk.Saving
import Scaffold.Proofs.Disk.Upkeep
import Scaffold.Proofs.Collection.Contents
import Scaffold.Proofs.OpenApi.Sound
import Scaffold.Proofs.OpenApi.Contents
import Scaffold.Proofs.Generation.Saving
import Scaffold.Proofs.Disk.Listing
import Scaffold.Proofs.Generation.Sources
import Scaffold.Proofs.Generation.Upkeeps
import Scaffold.Proofs.Generation.Rebuild
import Scaffold.Proofs.Disk.Writable
import Scaffold.Proofs.Artifact.References
import Scaffold.Proofs.OpenApi.Updates
import Scaffold.Proofs.Disk.Changes
import Scaffold.Proofs.World.Footprint
import Scaffold.Proofs.Generation.Footprint
import Scaffold.Proofs.Generation.Effects
import Scaffold.Proofs.Generation.Contents
import Scaffold.Proofs.Artifact.Services
import Scaffold.Proofs.Generation.Uploads
import Scaffold.Proofs.OpenApi.Recovered
import Scaffold.Proofs.Recovery.Normal
import Scaffold.Proofs.Collection.Recovered
import Scaffold.Proofs.Collection.Placeholders
import Scaffold.Proofs.Types.Shape
import Scaffold.Proofs.Field.Accounting
import Scaffold.Proofs.Generation.Documented
import Scaffold.Proofs.Generation.Agreement
import Scaffold.Proofs.Disk.Descent
import Scaffold.Proofs.Disk.Savable
import Scaffold.Proofs.Disk.Addition
import Scaffold.Proofs.World.Respect
import Scaffold.Proofs.Generation.Respect
import Scaffold.Proofs.Generation.Concerns
import Scaffold.Proofs.Generation.Isolation
import Scaffold.Proofs.Field.Notations
import Scaffold.Proofs.Router.Imports
import Scaffold.Proofs.Router.Separation
import Scaffold.Proofs.Router.Declaration
import Scaffold.Proofs.Recovery.ReadBack
import Scaffold.Proofs.Artifact.EnumNames
import Scaffold.Proofs.Generation.History
import Scaffold.Proofs.Types.Fallback
import Scaffold.Proofs.Recovery.Acceptance
import Scaffold.Proofs.Types.Modifiers
import Scaffold.Proofs.Settings.Layers
import Scaffold.Proofs.Settings.Loading
import Scaffold.Proofs.Disk.Outcomes
import Scaffold.Proofs.Generation.Attempts
import Scaffold.Proofs.Generation.Accounts
