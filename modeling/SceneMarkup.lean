import SceneMarkup.CommandLine.Options
import SceneMarkup.CommandLine.Outlet
import SceneMarkup.CommandLine.Plan
import SceneMarkup.Json.Access
import SceneMarkup.Json.Basic
import SceneMarkup.Json.Encoding
import SceneMarkup.Json.Printer
import SceneMarkup.Json.Reader
import SceneMarkup.Log.FilePath
import SceneMarkup.Log.Hierarchy
import SceneMarkup.Log.Record
import SceneMarkup.Log.Registry
import SceneMarkup.Lookup.Query
import SceneMarkup.Lookup.Tables
import SceneMarkup.Main
import SceneMarkup.Markup.Block
import SceneMarkup.Markup.Brush
import SceneMarkup.Markup.Declaration
import SceneMarkup.Markup.Fault
import SceneMarkup.Markup.Notice
import SceneMarkup.Markup.Property
import SceneMarkup.Markup.Reference
import SceneMarkup.Markup.Script
import SceneMarkup.Markup.Snippet
import SceneMarkup.Number.Angle
import SceneMarkup.Number.Binary64
import SceneMarkup.Number.Decimal
import SceneMarkup.Number.Literal
import SceneMarkup.Number.Numeral
import SceneMarkup.Number.Rounding
import SceneMarkup.Proofs.Conversation
import SceneMarkup.Scene.Binding
import SceneMarkup.Scene.Library
import SceneMarkup.Scene.Node
import SceneMarkup.Scene.NodeReader
import SceneMarkup.Scene.Paint
import SceneMarkup.Scene.Reader
import SceneMarkup.Scene.Reading
import SceneMarkup.Service.Address
import SceneMarkup.Service.Client
import SceneMarkup.Service.Document
import SceneMarkup.Service.Exchange
import SceneMarkup.Service.Host
import SceneMarkup.Service.Library
import SceneMarkup.Service.Link
import SceneMarkup.Service.Notice
import SceneMarkup.Service.Routes
import SceneMarkup.Service.Snapshot
import SceneMarkup.Settings
import SceneMarkup.Svg.Commands
import SceneMarkup.Text.Blank
import SceneMarkup.Text.DecimalDigit
import SceneMarkup.Text.Hex
import SceneMarkup.Text.Identifier
import SceneMarkup.Text.Percent
import SceneMarkup.Text.Printable
import SceneMarkup.Text.Punycode
import SceneMarkup.Text.Quoted
import SceneMarkup.Text.Search
import SceneMarkup.Text.Shown
import SceneMarkup.Text.Surrogate
import SceneMarkup.Text.Utf8
import SceneMarkup.Text.Wide
import SceneMarkup.Text.WordChar
import SceneMarkup.Proofs.Description
import SceneMarkup.Proofs.Mirroring
import SceneMarkup.Proofs.Replies
import SceneMarkup.Proofs.Isolation
import SceneMarkup.Proofs.Degradation
import SceneMarkup.Proofs.Unfollowed
import SceneMarkup.Proofs.Hyphens
import SceneMarkup.Proofs.Inline
import SceneMarkup.Proofs.Grammar
import SceneMarkup.Proofs.Ordering
import SceneMarkup.Proofs.LineBreaks
import SceneMarkup.Proofs.Exchanges
import SceneMarkup.Proofs.Answers
import SceneMarkup.Proofs.Refusals
import SceneMarkup.Proofs.Outages
import SceneMarkup.Proofs.Acceptance
import SceneMarkup.Proofs.Depiction
import SceneMarkup.Proofs.Conversion
import SceneMarkup.Proofs.Respelling
import SceneMarkup.Proofs.Drawings
import SceneMarkup.Proofs.Prefetch
import SceneMarkup.Proofs.Questions
import SceneMarkup.Proofs.LifeCycle
import SceneMarkup.Proofs.Displacement
import SceneMarkup.Proofs.Recovery
import SceneMarkup.Proofs.Paths
import SceneMarkup.Proofs.Radii
import SceneMarkup.Proofs.Nearest
import SceneMarkup.Proofs.Places
import SceneMarkup.Proofs.RadiusForms
import SceneMarkup.Proofs.HiddenLiterals
import SceneMarkup.Proofs.KebabCase
import SceneMarkup.Proofs.PascalCase
import SceneMarkup.Proofs.Literals
import SceneMarkup.Proofs.Scaling
import SceneMarkup.Proofs.Brushes
import SceneMarkup.Proofs.LineTags
import SceneMarkup.Proofs.PathTags
import SceneMarkup.Proofs.Nesting
import SceneMarkup.Proofs.Telescoping
import SceneMarkup.Proofs.RootPositions
import SceneMarkup.Proofs.OneLine
import SceneMarkup.Proofs.Escapes
import SceneMarkup.Proofs.Links
import SceneMarkup.Proofs.Requests
import SceneMarkup.Proofs.Downloads
import SceneMarkup.Proofs.Destinations
import SceneMarkup.Proofs.AskedFor
import SceneMarkup.Proofs.Logging
import SceneMarkup.Proofs.AllOrNothing
