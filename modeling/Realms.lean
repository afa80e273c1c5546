import Realms.Album
import Realms.Build
import Realms.BuildError
import Realms.Command.Arguments
import Realms.Command.Basic
import Realms.Command.Run
import Realms.Config
import Realms.Digest.Sha256
import Realms.Discovery
import Realms.Disk
import Realms.Disk.Step
import Realms.Emission.Basic
import Realms.Emission.Checked
import Realms.Emission.Code
import Realms.Emission.Exports
import Realms.Emission.Generate
import Realms.Exchange.Builds
import Realms.Exchange.Modules
import Realms.Exchange.Partitions
import Realms.Exchange.Shape
import Realms.FilePath
import Realms.Json.Read
import Realms.Json.Record
import Realms.Json.Value
import Realms.Json.Write
import Realms.Linkage
import Realms.Location
import Realms.Main
import Realms.Manifest
import Realms.ModulePath
import Realms.ModuleRecord
import Realms.Number.Double
import Realms.Output
import Realms.Page.Basic
import Realms.Page.Lines
import Realms.Page.Rows
import Realms.Page.Stream
import Realms.Partition.Basic
import Realms.Partition.Boundary
import Realms.Partition.Rounds
import Realms.Partition.Walk
import Realms.Realm
import Realms.Reference
import Realms.Registry
import Realms.Resolution
import Realms.Script.Grammar.Classes
import Realms.Script.Grammar.Declarations
import Realms.Script.Grammar.Expressions
import Realms.Script.Grammar.Functions
import Realms.Script.Grammar.Markup
import Realms.Script.Grammar.ModuleItems
import Realms.Script.Grammar.Parameters
import Realms.Script.Grammar.Patterns
import Realms.Script.Grammar.Statements
import Realms.Script.Grammar.Types
import Realms.Script.Names
import Realms.Script.Print
import Realms.Script.Reading
import Realms.Script.Source
import Realms.Script.Token.Basic
import Realms.Script.Token.Next
import Realms.Script.Token.Number
import Realms.Script.Token.Quoted
import Realms.Script.Token.Space
import Realms.Script.Tree
import Realms.Service.App
import Realms.Service.Call
import Realms.Service.MediaType
import Realms.Service.Transport
import Realms.Sorted
import Realms.Sources
import Realms.Sources.OfDisk
import Realms.Store
import Realms.Text.Blank
import Realms.Text.Identifier
import Realms.Text.Shown
import Realms.Text.Utf8
import Realms.Toml.Basic
import Realms.Toml.Read
import Realms.Proofs.Outcome
import Realms.Proofs.ModulePath
import Realms.Proofs.Sorted
import Realms.Proofs.Resolution
import Realms.Proofs.Script.Quoted
import Realms.Proofs.Script.Lexemes
import Realms.Proofs.Script.Steps
import Realms.Proofs.Script.Values
import Realms.Proofs.Script.Forms
import Realms.Proofs.Script.Functions
import Realms.Proofs.Script.Items
import Realms.Proofs.Script.Statements
import Realms.Proofs.Script.Gives
import Realms.Proofs.Script.Places
import Realms.Proofs.Script.Lines
import Realms.Proofs.Script.Appended
import Realms.Proofs.Script.Printed
import Realms.Proofs.Partition.Rules
import Realms.Proofs.Partition.Visit
import Realms.Proofs.Partition.Walk
import Realms.Proofs.Partition.Finished
import Realms.Proofs.Partition.Settled
import Realms.Proofs.Partition.Records
import Realms.Proofs.Partition.Boundary
import Realms.Proofs.Partition.Failures
import Realms.Proofs.Partition.Least
import Realms.Proofs.Partition.Normal
import Realms.Proofs.Registry
import Realms.Proofs.Text.Utf8
import Realms.Proofs.Json.Number
import Realms.Proofs.Json.Text
import Realms.Proofs.Json.Value
import Realms.Proofs.Json.Record
import Realms.Proofs.Emission.Made
import Realms.Proofs.Emission.Passes
import Realms.Proofs.Emission.Emittable
import Realms.Proofs.Emission.Functions
import Realms.Proofs.Emission.Confined
import Realms.Proofs.Emission.Slots
import Realms.Proofs.Emission.Closed
import Realms.Proofs.Emission.Reprinted
import Realms.Proofs.Emission.Styles
import Realms.Proofs.Emission.Replacements
import Realms.Proofs.Emission.Registered
import Realms.Proofs.Emission.Sent
import Realms.Proofs.Emission.Crossing
import Realms.Proofs.Emission.Ready
import Realms.Proofs.Emission.Offers
import Realms.Proofs.Emission.Ids
import Realms.Proofs.Emission.Policies
import Realms.Proofs.Disk.Place
import Realms.Proofs.Disk.Through
import Realms.Proofs.Disk.Keeps
import Realms.Proofs.Disk.Ending
import Realms.Proofs.Disk.Leaves
import Realms.Proofs.Output
import Realms.Proofs.Disk.Filled
import Realms.Proofs.Output.Filling
import Realms.Proofs.Output.Replaced
import Realms.Proofs.Output.Writable
import Realms.Proofs.Command.Build
import Realms.Proofs.Page.References
import Realms.Proofs.Page.Stream
import Realms.Proofs.Page.Sent
import Realms.Proofs.Page.Lines
import Realms.Proofs.Page.Lossless
import Realms.Proofs.Page.Body
import Realms.Proofs.Emission.Hygiene
import Realms.Proofs.Partition.Order
import Realms.Proofs.Partition.Termination
import Realms.Proofs.Partition.Represents
import Realms.Proofs.Emission.IdShapes
import Realms.Proofs.Manifest
import Realms.Proofs.Partition.Unreached
import Realms.Proofs.Sources
import Realms.Proofs.Disk.Tree
import Realms.Proofs.Partition.Lockstep
import Realms.Proofs.Sources.OfDisk
import Realms.Proofs.Output.Written
import Realms.Proofs.Output.Loaded
import Realms.Proofs.Store
import Realms.Proofs.Page.Received
import Realms.Proofs.Album
import Realms.Proofs.Script.Scopes
import Realms.Proofs.Script.Uses
import Realms.Proofs.Script.Declared
import Realms.Proofs.Script.RunTime
import Realms.Proofs.Script.Continues
import Realms.Proofs.Script.Directives
import Realms.Proofs.Classification
import Realms.Proofs.Registrations
import Realms.Proofs.Service.Answered
import Realms.Proofs.FilePath
import Realms.Proofs.Discovery
import Realms.Proofs.Command.Orphans
import Realms.Proofs.Disk.Named
import Realms.Proofs.Disk.Created
import Realms.Proofs.Output.Rewritten
import Realms.Proofs.Command.Repeated
import Realms.Proofs.ModulePath.NormalForm
import Realms.Proofs.Resolution.Relative
import Realms.Proofs.FilePath.Inverse
import Realms.Proofs.Config
import Realms.Proofs.Reference
import Realms.Proofs.Partition.Checked
import Realms.Proofs.Script.Literal
import Realms.Proofs.Script.Bindings
import Realms.Proofs.Location
import Realms.Proofs.Discovery.Accounted
