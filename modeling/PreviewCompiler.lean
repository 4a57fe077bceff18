import PreviewCompiler.Command.Check
import PreviewCompiler.Command.Fault
import PreviewCompiler.Command.Form
import PreviewCompiler.Command.Help
import PreviewCompiler.Command.Invocation
import PreviewCompiler.Command.Report
import PreviewCompiler.Command.Run
import PreviewCompiler.Compile.Error
import PreviewCompiler.Compile.Linking
import PreviewCompiler.Compile.Placeholder
import PreviewCompiler.Compile.Resolution
import PreviewCompiler.Compile.SourceKind
import PreviewCompiler.Compile.Stage
import PreviewCompiler.Compile.Transform
import PreviewCompiler.Config
import PreviewCompiler.Data.OrderedMap
import PreviewCompiler.Decimal.Binary
import PreviewCompiler.Decimal.Shortest
import PreviewCompiler.Disk.Basic
import PreviewCompiler.Disk.Change
import PreviewCompiler.Disk.Fault
import PreviewCompiler.Disk.Node
import PreviewCompiler.Disk.Walk
import PreviewCompiler.Files.FileSet
import PreviewCompiler.Files.Operation
import PreviewCompiler.Files.Path
import PreviewCompiler.Files.VirtualFile
import PreviewCompiler.Files.Watched
import PreviewCompiler.Hash.Blake3
import PreviewCompiler.Hash.Fingerprint
import PreviewCompiler.ImportMap
import PreviewCompiler.Json.Basic
import PreviewCompiler.Json.Decoder
import PreviewCompiler.Json.Fault
import PreviewCompiler.Json.Printer
import PreviewCompiler.Json.Reader
import PreviewCompiler.Main
import PreviewCompiler.Package.Redirects
import PreviewCompiler.Package.Specifier
import PreviewCompiler.Preview.Channel
import PreviewCompiler.Preview.Document
import PreviewCompiler.Preview.Export
import PreviewCompiler.Preview.Gate
import PreviewCompiler.Preview.Message
import PreviewCompiler.Preview.Session
import PreviewCompiler.Project
import PreviewCompiler.Registry.Basic
import PreviewCompiler.Registry.Blob
import PreviewCompiler.Script.Binding
import PreviewCompiler.Script.Comment
import PreviewCompiler.Script.Compile
import PreviewCompiler.Script.Entity
import PreviewCompiler.Script.Erasure
import PreviewCompiler.Script.Fault
import PreviewCompiler.Script.Grammar.Access
import PreviewCompiler.Script.Grammar.Basic
import PreviewCompiler.Script.Grammar.Class
import PreviewCompiler.Script.Grammar.Function
import PreviewCompiler.Script.Grammar.Item
import PreviewCompiler.Script.Grammar.Markup
import PreviewCompiler.Script.Grammar.Name
import PreviewCompiler.Script.Grammar.Operator
import PreviewCompiler.Script.Grammar.Statement
import PreviewCompiler.Script.Grammar.Target
import PreviewCompiler.Script.Grammar.Types
import PreviewCompiler.Script.Grammar.Value
import PreviewCompiler.Script.Grouping
import PreviewCompiler.Script.Lexer
import PreviewCompiler.Script.Lowering
import PreviewCompiler.Script.Naming
import PreviewCompiler.Script.Node
import PreviewCompiler.Script.Numeral
import PreviewCompiler.Script.Printer
import PreviewCompiler.Script.Printer.Basic
import PreviewCompiler.Script.Printer.Statement
import PreviewCompiler.Script.Printer.Value
import PreviewCompiler.Script.Reader
import PreviewCompiler.Script.Source
import PreviewCompiler.Script.Specifier
import PreviewCompiler.Script.Token
import PreviewCompiler.Server.Address
import PreviewCompiler.Server.Basic
import PreviewCompiler.Server.Event
import PreviewCompiler.Server.HostPage
import PreviewCompiler.Server.Response
import PreviewCompiler.Style.Arrangement
import PreviewCompiler.Style.Color
import PreviewCompiler.Style.ColorNames
import PreviewCompiler.Style.Fault
import PreviewCompiler.Style.Input
import PreviewCompiler.Style.Lexer
import PreviewCompiler.Style.Media
import PreviewCompiler.Style.Printer
import PreviewCompiler.Style.Property
import PreviewCompiler.Style.Rule
import PreviewCompiler.Style.Selector
import PreviewCompiler.Style.Token
import PreviewCompiler.Style.Value
import PreviewCompiler.Styles
import PreviewCompiler.Text.Blank
import PreviewCompiler.Text.IdentifierClass
import PreviewCompiler.Text.Line
import PreviewCompiler.Text.Offset
import PreviewCompiler.Text.Quoted
import PreviewCompiler.Text.Split
import PreviewCompiler.Text.Utf8
import PreviewCompiler.Version
import PreviewCompiler.Proofs.Registry.Blob
import PreviewCompiler.Proofs.Registry.Changes
import PreviewCompiler.Proofs.Registry.Commit
import PreviewCompiler.Proofs.Script.Traversal
import PreviewCompiler.Proofs.Compile.Links
import PreviewCompiler.Proofs.Hash.Fingerprint
import PreviewCompiler.Proofs.Registry.Run
import PreviewCompiler.Proofs.Registry.UpToDate
import PreviewCompiler.Proofs.Preview.ImportMap
import PreviewCompiler.Proofs.Preview.Session
import PreviewCompiler.Proofs.Files.Snapshot
import PreviewCompiler.Proofs.Server.World
import PreviewCompiler.Proofs.Server.Passes
import PreviewCompiler.Proofs.Registry.Minting
import PreviewCompiler.Proofs.Compile.SameFiles
import PreviewCompiler.Proofs.Preview.Rendered
import PreviewCompiler.Proofs.Server.Told
import PreviewCompiler.Proofs.Server.Counters
import PreviewCompiler.Proofs.Script.Agreement
import PreviewCompiler.Proofs.Compile.Packages
import PreviewCompiler.Proofs.Registry.Content
import PreviewCompiler.Proofs.Preview.Order
import PreviewCompiler.Proofs.Files.Canonical
import PreviewCompiler.Proofs.Files.Below
import PreviewCompiler.Proofs.Files.Tree
import PreviewCompiler.Proofs.Files.Editing
import PreviewCompiler.Proofs.Files.Rename
import PreviewCompiler.Proofs.Preview.Failure
import PreviewCompiler.Proofs.Registry.Origin
import PreviewCompiler.Proofs.Compile.PackageNames
import PreviewCompiler.Proofs.Data.List
import PreviewCompiler.Proofs.Preview.Aliases
import PreviewCompiler.Proofs.Script.Relabel
import PreviewCompiler.Proofs.Script.Sketch
import PreviewCompiler.Proofs.Script.Printing
import PreviewCompiler.Proofs.Script.Naming
import PreviewCompiler.Proofs.Script.Grouping
import PreviewCompiler.Proofs.Script.Specifier
import PreviewCompiler.Proofs.Compile.Addresses
import PreviewCompiler.Proofs.Text.Replace
import PreviewCompiler.Proofs.Text.Digits
import PreviewCompiler.Proofs.Compile.Placeholder
import PreviewCompiler.Proofs.Registry.FinalCode
import PreviewCompiler.Proofs.Data.Except
import PreviewCompiler.Proofs.Data.OrderedMap
import PreviewCompiler.Proofs.Script.Parts
import PreviewCompiler.Proofs.Script.Way
import PreviewCompiler.Proofs.Compile.Linked
import PreviewCompiler.Proofs.Registry.Closure
import PreviewCompiler.Proofs.Registry.Edits
import PreviewCompiler.Proofs.Preview.History
import PreviewCompiler.Proofs.Compile.Urls
import PreviewCompiler.Proofs.Json.Reading
import PreviewCompiler.Proofs.Preview.Escaping
import PreviewCompiler.Proofs.Preview.Page
import PreviewCompiler.Proofs.Files.Extension
import PreviewCompiler.Proofs.Compile.Candidates
import PreviewCompiler.Proofs.Compile.Stylesheets
import PreviewCompiler.Proofs.Package.Text
import PreviewCompiler.Proofs.Script.StringLiteral
import PreviewCompiler.Proofs.Preview.Bootstrap
import PreviewCompiler.Proofs.Script.Effects
import PreviewCompiler.Proofs.Compile.Effects
import PreviewCompiler.Proofs.Registry.Address
import PreviewCompiler.Proofs.Files.Versions
import PreviewCompiler.Proofs.Files.VirtualFile
import PreviewCompiler.Proofs.Preview.RuntimeErrors
import PreviewCompiler.Proofs.Package.Bare
import PreviewCompiler.Proofs.Compile.Places
import PreviewCompiler.Proofs.Preview.PackageKeys
import PreviewCompiler.Proofs.Preview.Blame
import PreviewCompiler.Proofs.Files.Insertion
import PreviewCompiler.Proofs.Disk.Walk
import PreviewCompiler.Proofs.Json.Decoding
import PreviewCompiler.Proofs.Preview.Exchange
import PreviewCompiler.Proofs.Hash.Collision
import PreviewCompiler.Proofs.Compile.Substitution
import PreviewCompiler.Proofs.Disk.Snapshot
import PreviewCompiler.Proofs.Disk.Making
import PreviewCompiler.Proofs.Command.Writing
import PreviewCompiler.Proofs.Command.Export
import PreviewCompiler.Proofs.Files.NormalForm
import PreviewCompiler.Proofs.Text.Letter
import PreviewCompiler.Proofs.Text.Offset
import PreviewCompiler.Proofs.Preview.StyleScan
