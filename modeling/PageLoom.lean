import PageLoom.Command.Arguments
import PageLoom.Command.Logging
import PageLoom.Command.Notice
import PageLoom.Command.Run
import PageLoom.Command.Scope
import PageLoom.Command.Wording
import PageLoom.Component.Cache
import PageLoom.Component.Failures
import PageLoom.Component.Key
import PageLoom.Component.Resolve
import PageLoom.Component.Session
import PageLoom.Component.Store
import PageLoom.Condition.Evaluation
import PageLoom.Condition.Expr
import PageLoom.Condition.Grammar
import PageLoom.Condition.Token
import PageLoom.Condition.Value
import PageLoom.Config.Datum
import PageLoom.Config.Layers
import PageLoom.Config.Load
import PageLoom.Config.Validation
import PageLoom.Console.Color
import PageLoom.Console.Markup
import PageLoom.Console.Parameters
import PageLoom.Console.Style
import PageLoom.Disk.Basic
import PageLoom.Disk.Difference
import PageLoom.Disk.Path
import PageLoom.Environment.Basic
import PageLoom.Environment.Binding
import PageLoom.Environment.Settings
import PageLoom.Main
import PageLoom.Markup.Attribute
import PageLoom.Markup.Comment
import PageLoom.Markup.Tag
import PageLoom.Number.Basic
import PageLoom.Number.Numeral
import PageLoom.Number.Rounding
import PageLoom.Number.Shortest
import PageLoom.Proofs.Component.Expansion
import PageLoom.Proofs.Component.KeyInjectivity
import PageLoom.Proofs.Component.Run
import PageLoom.Proofs.Component.Soundness
import PageLoom.Props
import PageLoom.Serve.Authority
import PageLoom.Serve.EventStream
import PageLoom.Serve.Host
import PageLoom.Serve.HostName
import PageLoom.Serve.HostTable
import PageLoom.Serve.Hub
import PageLoom.Serve.Listing
import PageLoom.Serve.Page
import PageLoom.Serve.Reply
import PageLoom.Serve.Request
import PageLoom.Serve.Target
import PageLoom.Site.Build
import PageLoom.Site.Config
import PageLoom.Site.Document
import PageLoom.Site.Partition
import PageLoom.Site.Report
import PageLoom.Table
import PageLoom.Template.Block
import PageLoom.Template.Conditional
import PageLoom.Template.Directive
import PageLoom.Template.Loop
import PageLoom.Template.Trace
import PageLoom.Text.Basic
import PageLoom.Text.CaseTable
import PageLoom.Text.Classes
import PageLoom.Text.Lower
import PageLoom.Text.LowerTable
import PageLoom.Text.Percent
import PageLoom.Text.Punycode
import PageLoom.Text.Quoted
import PageLoom.Text.Scan
import PageLoom.Text.UnprintableTable
import PageLoom.Text.Utf8
import PageLoom.Text.WordTable
import PageLoom.Toml.Document
import PageLoom.Toml.Scalar
import PageLoom.Watch.Survey
import PageLoom.Watch.Watcher
import PageLoom.Proofs.Table
import PageLoom.Proofs.Component.History
import PageLoom.Proofs.Component.Tally
import PageLoom.Proofs.Component.Summary
import PageLoom.Proofs.Component.Index
import PageLoom.Proofs.Component.Closure
import PageLoom.Proofs.Component.Independence
import PageLoom.Proofs.Disk.Actions
import PageLoom.Proofs.Site.Walk
import PageLoom.Proofs.Site.Copy
import PageLoom.Proofs.Site.Buildable
import PageLoom.Proofs.Site.Partition
import PageLoom.Proofs.Site.Render
import PageLoom.Proofs.Site.FullBuild
import PageLoom.Proofs.Text.Blank
import PageLoom.Proofs.Markup.Grammar
import PageLoom.Proofs.Markup.Attributes
import PageLoom.Proofs.Markup.Sealed
import PageLoom.Proofs.Template.Sealed
import PageLoom.Proofs.Component.Faultless
import PageLoom.Proofs.Component.Nesting
import PageLoom.Proofs.Disk.Frame
import PageLoom.Proofs.Site.Frame
import PageLoom.Proofs.Text.Scan
import PageLoom.Proofs.Markup.Numbering
import PageLoom.Proofs.Markup.Invocation
import PageLoom.Proofs.Component.AttributeValue
import PageLoom.Proofs.Template.Markers
import PageLoom.Proofs.Component.Tracing
import PageLoom.Proofs.Component.Generation
import PageLoom.Proofs.Site.Lasting
import PageLoom.Proofs.Site.Loading
import PageLoom.Proofs.Site.Rebuild
import PageLoom.Proofs.Site.Stopped
import PageLoom.Proofs.Watch.Run
import PageLoom.Proofs.Watch.Guard
import PageLoom.Proofs.Watch.History
import PageLoom.Proofs.Watch.Debounce
import PageLoom.Proofs.Component.Scratch
import PageLoom.Proofs.Disk.Put
import PageLoom.Proofs.Site.Product
import PageLoom.Proofs.Site.Update
import PageLoom.Proofs.Site.Mirror
import PageLoom.Proofs.Watch.Ready
import PageLoom.Proofs.Watch.Departure
import PageLoom.Proofs.Watch.Follow
import PageLoom.Proofs.Disk.Footprint
import PageLoom.Proofs.Site.Footprint
import PageLoom.Proofs.Site.Requests
import PageLoom.Proofs.Watch.Requests
import PageLoom.Proofs.Watch.Confinement
import PageLoom.Proofs.Serve.Delivery
import PageLoom.Proofs.Markup.Sighting
import PageLoom.Proofs.Component.PlainDocument
import PageLoom.Proofs.Template.Pairing
import PageLoom.Proofs.Template.Outermost
import PageLoom.Proofs.Condition.Blank
import PageLoom.Proofs.Template.Written
import PageLoom.Proofs.Template.Outline
import PageLoom.Proofs.Text.Percent
import PageLoom.Proofs.Disk.Names
import PageLoom.Proofs.Serve.PagePath
import PageLoom.Proofs.Watch.Viewer
import PageLoom.Proofs.Watch.Notification
import PageLoom.Proofs.Watch.Containment
import PageLoom.Proofs.Number.Range
import PageLoom.Proofs.Number.Faults
import PageLoom.Proofs.Condition.Faults
import PageLoom.Proofs.Condition.Derivation
import PageLoom.Proofs.Condition.Substitution
import PageLoom.Proofs.Number.Numeral
import PageLoom.Proofs.Number.Nearest
import PageLoom.Proofs.Condition.Comparison
import PageLoom.Proofs.Text.Replace
import PageLoom.Proofs.Template.Filling
import PageLoom.Proofs.Component.PropOrder
import PageLoom.Proofs.Markup.Printing
import PageLoom.Proofs.Markup.Locality
import PageLoom.Proofs.Template.TextComparison
import PageLoom.Proofs.Text.Separation
import PageLoom.Proofs.Template.Repetition
import PageLoom.Proofs.Site.Selection
import PageLoom.Proofs.Site.Exclusion
import PageLoom.Proofs.Disk.Residue
import PageLoom.Proofs.Site.Skipped
import PageLoom.Proofs.Props
import PageLoom.Proofs.Component.CacheHistory
import PageLoom.Proofs.Text.Lower
import PageLoom.Proofs.Disk.PathText
import PageLoom.Proofs.Config.Fields
import PageLoom.Proofs.Config.Layers
import PageLoom.Proofs.Toml.Scalar
import PageLoom.Proofs.Toml.Document
import PageLoom.Proofs.Config.Loading
import PageLoom.Proofs.Config.Merge
