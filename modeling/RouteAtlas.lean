import RouteAtlas.Main
import RouteAtlas.Log.Message
import RouteAtlas.Service
import RouteAtlas.Proofs.Document.Mounting
import RouteAtlas.Proofs.Facts.MountSwitch
import RouteAtlas.Proofs.Facts.Growth
import RouteAtlas.Proofs.Code.Lowering
import RouteAtlas.Proofs.Code.Readable
import RouteAtlas.Proofs.Number.Digits
import RouteAtlas.Proofs.Facts.WellFormed
import RouteAtlas.Proofs.Document.Chain
import RouteAtlas.Proofs.Disk.Name
import RouteAtlas.Proofs.Text.Order
import RouteAtlas.Proofs.Disk.Place
import RouteAtlas.Proofs.Disk.Follow
import RouteAtlas.Proofs.Disk.Alike
import RouteAtlas.Proofs.Import.Candidate
import RouteAtlas.Proofs.Import.Scanned
import RouteAtlas.Proofs.Document.Page
import RouteAtlas.Proofs.Document.Json
import RouteAtlas.Proofs.Document.LeadingSlash
import RouteAtlas.Proofs.Facts.Description
import RouteAtlas.Proofs.Facts.Renaming
import RouteAtlas.Proofs.Run.Files
import RouteAtlas.Proofs.Run.Publish
import RouteAtlas.Proofs.Document.Reordering
import RouteAtlas.Proofs.Document.Conforming
import RouteAtlas.Proofs.Run.Unpublished
import RouteAtlas.Proofs.Settings.Answered
import RouteAtlas.Proofs.Binding.Declared
import RouteAtlas.Proofs.Code.Walk
import RouteAtlas.Proofs.Facts.Described
import RouteAtlas.Proofs.Document.Nested
import RouteAtlas.Proofs.Facts.Edges
import RouteAtlas.Proofs.Import.Probe
import RouteAtlas.Proofs.Document.Grouping
import RouteAtlas.Proofs.Document.View
import RouteAtlas.Proofs.Code.Integer
import RouteAtlas.Proofs.Code.Spelling
import RouteAtlas.Proofs.Document.Repeated
import RouteAtlas.Proofs.Settings.Loaded
import RouteAtlas.Proofs.Document.Concatenation
import RouteAtlas.Proofs.Log.Delivery
