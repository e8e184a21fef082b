import ApkAtlas.Chunk.Layout
import ApkAtlas.ResourceTable
import ApkAtlas.Xml.Compiled
import ApkAtlas.Datum.Json
import ApkAtlas.Number.Literal
import ApkAtlas.Text.Utf16
import ApkAtlas.Text.Word
import ApkAtlas.Symbols.Load
import ApkAtlas.Symbols.ClassName
import ApkAtlas.Package.Build
import ApkAtlas.Package.Graph
import ApkAtlas.Manifest
import ApkAtlas.Dex.Stats
import ApkAtlas.Dex.Symbols
import ApkAtlas.Dex.Reader
import ApkAtlas.Platform.Builtin
import ApkAtlas.Analysis
import ApkAtlas.Failure.Fields
import ApkAtlas.SizeText
import ApkAtlas.Storage.ReportStore
import ApkAtlas.CommandLine.Run
import ApkAtlas.Main
import ApkAtlas.Proofs.Except
import ApkAtlas.Proofs.Logged
import ApkAtlas.Proofs.Table
import ApkAtlas.Proofs.Text.Segment
import ApkAtlas.Proofs.Text.Name
import ApkAtlas.Proofs.Text.Trim
import ApkAtlas.Proofs.Text.Utf8
import ApkAtlas.Proofs.Symbols.Descriptor
import ApkAtlas.Proofs.Symbols.DescriptorScan
import ApkAtlas.Proofs.Symbols.JavaType
import ApkAtlas.Proofs.Symbols.MemberType
import ApkAtlas.Proofs.Symbols.SourceForms
import ApkAtlas.Proofs.Symbols.MappingPrint
import ApkAtlas.Proofs.Symbols.SeedPrint
import ApkAtlas.Proofs.Symbols.History
import ApkAtlas.Proofs.Symbols.Program
import ApkAtlas.Proofs.Symbols.Namesake
import ApkAtlas.Proofs.Symbols.Calls
import ApkAtlas.Proofs.Symbols.MappingLayout
import ApkAtlas.Proofs.Symbols.AcceptedText
import ApkAtlas.Proofs.Symbols.EitherName
import ApkAtlas.Proofs.Symbols.LineGrammar
import ApkAtlas.Proofs.Symbols.LineReader
import ApkAtlas.Proofs.Symbols.BadLine
import ApkAtlas.Proofs.Symbols.Load
import ApkAtlas.Proofs.NumberTexts
import ApkAtlas.Proofs.ValueNumbers
import ApkAtlas.Proofs.ManifestNumbers
import ApkAtlas.Proofs.Datum.JsonToken
import ApkAtlas.Proofs.Datum.Json
import ApkAtlas.Proofs.Storage.FileTree
import ApkAtlas.Proofs.Storage.ReportPath
import ApkAtlas.Proofs.Storage.SoundTree
import ApkAtlas.Proofs.Storage.StoreFiles
import ApkAtlas.Proofs.Storage.RegularKey
import ApkAtlas.Proofs.Storage.DerivedKey
import ApkAtlas.Proofs.Report
import ApkAtlas.Proofs.Storage.Shelf
import ApkAtlas.Proofs.Storage.Mirror
import ApkAtlas.Proofs.Storage.PackageReport
import ApkAtlas.Proofs.Package.Tree
import ApkAtlas.Proofs.Package.Totals
import ApkAtlas.Proofs.Package.Placement
import ApkAtlas.Proofs.Package.Insertion
import ApkAtlas.Proofs.Package.Run
import ApkAtlas.Proofs.Package.Contents
import ApkAtlas.Proofs.Package.Content
import ApkAtlas.Proofs.Package.Summaries
import ApkAtlas.Proofs.Package.Rejection
import ApkAtlas.Proofs.Package.Forest
import ApkAtlas.Proofs.Package.GraphTotals
import ApkAtlas.Proofs.Package.AttachOrder
import ApkAtlas.Proofs.Package.Linked
import ApkAtlas.Proofs.Package.Counters
import ApkAtlas.Proofs.Package.Referenced
import ApkAtlas.Proofs.Package.Notes
import ApkAtlas.Proofs.Package.Repeated
import ApkAtlas.Proofs.Package.Collisions
import ApkAtlas.Proofs.Package.Accounting
import ApkAtlas.Proofs.Package.Stopping
import ApkAtlas.Proofs.Package.Again
import ApkAtlas.Proofs.Package.Agreement
import ApkAtlas.Proofs.Package.Ranking
import ApkAtlas.Proofs.Package.Rearranged
import ApkAtlas.Proofs.Package.Outline
import ApkAtlas.Proofs.Package.LinkedBuild
import ApkAtlas.Proofs.Package.NodePaths
import ApkAtlas.Proofs.Package.Fitting
import ApkAtlas.Proofs.Package.Policies
import ApkAtlas.Proofs.Dex.OwnMembers
import ApkAtlas.Proofs.Package.Bytecode
import ApkAtlas.Proofs.Chunk.ErrorPlace
import ApkAtlas.Proofs.Chunk.Fallible
import ApkAtlas.Proofs.Xml.Untrusted
import ApkAtlas.Proofs.Untrusted
import ApkAtlas.Proofs.Chunk.Composition
import ApkAtlas.Proofs.Chunk.PoolArrangement
import ApkAtlas.Proofs.Chunk.PoolComposition
import ApkAtlas.Proofs.Xml.Source
import ApkAtlas.Proofs.Xml.NodeReading
import ApkAtlas.Proofs.Xml.NodeEffect
import ApkAtlas.Proofs.Xml.RoundTrip
import ApkAtlas.Proofs.Operations
import ApkAtlas.Proofs.Analysis
import ApkAtlas.Proofs.Chunk.SharedFront
import ApkAtlas.Proofs.Chunk.Tiling
import ApkAtlas.Proofs.Trailing
import ApkAtlas.Proofs.ResourceTable
import ApkAtlas.Proofs.Delimiter
import ApkAtlas.Proofs.Xml.Listing
import ApkAtlas.Proofs.Xml.Parts
import ApkAtlas.Proofs.Xml.Nesting
import ApkAtlas.Proofs.Xml.NamespaceScope
import ApkAtlas.Proofs.Xml.Markup.Scanned
import ApkAtlas.Proofs.Xml.Markup.Tags
import ApkAtlas.Proofs.Xml.Markup.Written
import ApkAtlas.Proofs.Xml.Printed
import ApkAtlas.Proofs.Xml.Reread
import ApkAtlas.Proofs.Xml.Bare
import ApkAtlas.Proofs.Xml.Faithful
import ApkAtlas.Proofs.ManifestPrint
import ApkAtlas.Proofs.Xml.Unambiguous
import ApkAtlas.Proofs.Xml.Assembled
import ApkAtlas.Proofs.Xml.Balance
import ApkAtlas.Proofs.Chunk.Moved
import ApkAtlas.Proofs.Chunk.ExactReads
import ApkAtlas.Proofs.Xml.Transparent
import ApkAtlas.Proofs.Archive.LoadOrder
import ApkAtlas.Proofs.SkippedFiles
import ApkAtlas.Proofs.TableComposition
import ApkAtlas.Proofs.RepeatedEntries
import ApkAtlas.Proofs.AnalysisLog
