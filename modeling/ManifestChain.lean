import ManifestChain.Application
import ManifestChain.Calendar.Date
import ManifestChain.Calendar.Timestamp
import ManifestChain.Chain
import ManifestChain.Child
import ManifestChain.Command
import ManifestChain.Config
import ManifestChain.Context
import ManifestChain.Fault
import ManifestChain.Files.Disk
import ManifestChain.Files.Manifests
import ManifestChain.Files.Tree
import ManifestChain.Json.Basic
import ManifestChain.Json.Parser
import ManifestChain.Json.Printer
import ManifestChain.Main
import ManifestChain.Number.Binary64
import ManifestChain.Number.Decimal
import ManifestChain.Number.Layout
import ManifestChain.Number.Numeral
import ManifestChain.Options.Basic
import ManifestChain.Options.Fault
import ManifestChain.Options.Flag
import ManifestChain.Options.Help
import ManifestChain.Options.Word
import ManifestChain.Payload
import ManifestChain.Proofs.Application
import ManifestChain.Proofs.Application.Hashing
import ManifestChain.Proofs.Application.Kind
import ManifestChain.Proofs.Application.Naming
import ManifestChain.Proofs.Application.Nesting
import ManifestChain.Proofs.Application.Pointwise
import ManifestChain.Proofs.Calendar.Date
import ManifestChain.Proofs.Calendar.Instant
import ManifestChain.Proofs.Calendar.Text
import ManifestChain.Proofs.Calendar.Timestamp
import ManifestChain.Proofs.Chain
import ManifestChain.Proofs.Chain.Composition
import ManifestChain.Proofs.Chain.Diagnostics
import ManifestChain.Proofs.Chain.EntryOrder
import ManifestChain.Proofs.Chain.NormalForm
import ManifestChain.Proofs.Child
import ManifestChain.Proofs.Child.Recognition
import ManifestChain.Proofs.Command
import ManifestChain.Proofs.Command.Course
import ManifestChain.Proofs.Command.Output
import ManifestChain.Proofs.Command.Writing
import ManifestChain.Proofs.Context
import ManifestChain.Proofs.Context.Agreement
import ManifestChain.Proofs.Context.Pairing
import ManifestChain.Proofs.Fault
import ManifestChain.Proofs.Files.Disk
import ManifestChain.Proofs.Files.Listing
import ManifestChain.Proofs.Files.Manifests
import ManifestChain.Proofs.Files.Tree
import ManifestChain.Proofs.Json.Encoding
import ManifestChain.Proofs.Json.Members
import ManifestChain.Proofs.Json.Number
import ManifestChain.Proofs.Json.Order
import ManifestChain.Proofs.Json.RoundTrip
import ManifestChain.Proofs.Number.Decimal
import ManifestChain.Proofs.Payload.Acceptance
import ManifestChain.Proofs.Payload.Canonical
import ManifestChain.Proofs.Payload.EntryOrder
import ManifestChain.Proofs.Payload.Faults
import ManifestChain.Proofs.Payload.KeySearch
import ManifestChain.Proofs.Payload.NormalForm
import ManifestChain.Proofs.Payload.Portable
import ManifestChain.Proofs.Payload.Showing
import ManifestChain.Proofs.Service
import ManifestChain.Proofs.Service.DeclaredPorts
import ManifestChain.Proofs.Service.EntryOrder
import ManifestChain.Proofs.Service.InvalidPort
import ManifestChain.Proofs.Service.Search
import ManifestChain.Proofs.Service.Skipping
import ManifestChain.Proofs.Service.Warnings
import ManifestChain.Proofs.Session
import ManifestChain.Proofs.Text.Encoding
import ManifestChain.Proofs.Text.Order
import ManifestChain.Proofs.Text.Parting
import ManifestChain.Proofs.Text.Quoted
import ManifestChain.Proofs.Value.Display
import ManifestChain.Proofs.Value.Encoding
import ManifestChain.Proofs.Value.EntryOrder
import ManifestChain.Proofs.Value.Hashing
import ManifestChain.Proofs.Value.Parts
import ManifestChain.Proofs.Value.WellFormed
import ManifestChain.Proofs.Yaml.Forms
import ManifestChain.Service
import ManifestChain.Session
import ManifestChain.Text.Base64
import ManifestChain.Text.Basic
import ManifestChain.Text.Blank
import ManifestChain.Text.Digit
import ManifestChain.Text.Encoding
import ManifestChain.Text.LetterCase.Lower
import ManifestChain.Text.LetterCase.Table
import ManifestChain.Text.Printable
import ManifestChain.Text.Quoted
import ManifestChain.Text.Utf8
import ManifestChain.Translator
import ManifestChain.Value.Access
import ManifestChain.Value.Basic
import ManifestChain.Value.Construction
import ManifestChain.Value.Display
import ManifestChain.Value.Equality
import ManifestChain.Value.Rendering
import ManifestChain.Yaml.Cursor
import ManifestChain.Yaml.Node.Basic
import ManifestChain.Yaml.Node.Merge
import ManifestChain.Yaml.Node.Parser
import ManifestChain.Yaml.Node.Part
import ManifestChain.Yaml.Node.Scalar
import ManifestChain.Yaml.Node.Value
import ManifestChain.Yaml.Pen
import ManifestChain.Yaml.Scalar
import ManifestChain.Yaml.Source
import ManifestChain.Yaml.Stream
import ManifestChain.Yaml.Style
import ManifestChain.Yaml.Tag
import ManifestChain.Yaml.Token
import ManifestChain.Yaml.Token.Lexer
import ManifestChain.Yaml.Tree.Basic
import ManifestChain.Yaml.Tree.Printer
