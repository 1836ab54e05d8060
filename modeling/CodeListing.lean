import CodeListing.CodeRange
import CodeListing.Command.Arguments
import CodeListing.Command.Execute
import CodeListing.Decimal.Binary64
import CodeListing.Digest.Sha256
import CodeListing.Document.Basic
import CodeListing.Document.DecodeError
import CodeListing.Document.Decoder
import CodeListing.Document.Scalar
import CodeListing.Document.Shape
import CodeListing.Error
import CodeListing.Files.Disk
import CodeListing.Files.Host
import CodeListing.Files.Load
import CodeListing.Files.Path
import CodeListing.FirstByKey
import CodeListing.Glob
import CodeListing.Instruction
import CodeListing.Isa.Arm64.Decode
import CodeListing.Isa.Arm64.Facts
import CodeListing.Isa.Arm64.Insn
import CodeListing.Isa.Basic
import CodeListing.Isa.Literal
import CodeListing.Isa.Stream
import CodeListing.Isa.X86.Decode
import CodeListing.Isa.X86.Operand
import CodeListing.Isa.X86.Reference
import CodeListing.Json.Lexeme
import CodeListing.Json.ParseError
import CodeListing.Json.Parser
import CodeListing.Json.Printer
import CodeListing.Json.Reader
import CodeListing.Json.Scalar
import CodeListing.Json.Skip
import CodeListing.Listing.Basic
import CodeListing.Listing.Groups
import CodeListing.Listing.Text
import CodeListing.Main
import CodeListing.Method
import CodeListing.Moment
import CodeListing.NameMap
import CodeListing.Proofs.AccessLog
import CodeListing.Proofs.AddressKeys
import CodeListing.Proofs.AddressNames
import CodeListing.Proofs.CallDistance
import CodeListing.Proofs.CallGraph
import CodeListing.Proofs.DecodedBytes
import CodeListing.Proofs.DeeperListing
import CodeListing.Proofs.DepthPrefix
import CodeListing.Proofs.DocumentReading
import CodeListing.Proofs.Ending
import CodeListing.Proofs.EntryGroups
import CodeListing.Proofs.EntryListing
import CodeListing.Proofs.EqualPaths
import CodeListing.Proofs.Findings
import CodeListing.Proofs.GuardedAccess
import CodeListing.Proofs.HexGrammar
import CodeListing.Proofs.HexText
import CodeListing.Proofs.InstructionStream
import CodeListing.Proofs.LabelBase
import CodeListing.Proofs.ListingDocuments
import CodeListing.Proofs.ListingOrProblem
import CodeListing.Proofs.LocalLabels
import CodeListing.Proofs.LocalReferences
import CodeListing.Proofs.LowerCase
import CodeListing.Proofs.MemoryRegions
import CodeListing.Proofs.NamePatterns
import CodeListing.Proofs.NamedOperands
import CodeListing.Proofs.NarrowAddresses
import CodeListing.Proofs.Numerals
import CodeListing.Proofs.OverwrittenRegisters
import CodeListing.Proofs.Queue
import CodeListing.Proofs.QueueHistory
import CodeListing.Proofs.RangeOrder
import CodeListing.Proofs.RangeReading
import CodeListing.Proofs.RegisterFacts
import CodeListing.Proofs.RegisterMachine
import CodeListing.Proofs.ResolvedOnce
import CodeListing.Proofs.SelectedMethods
import CodeListing.Proofs.ServedMemory
import CodeListing.Proofs.ShiftAmount
import CodeListing.Proofs.SingleReads
import CodeListing.Proofs.SnapshotDocuments
import CodeListing.Proofs.SortedByAddress
import CodeListing.Proofs.SourceLines
import CodeListing.Proofs.StaleView
import CodeListing.Proofs.Steady
import CodeListing.Proofs.StubCode
import CodeListing.Proofs.StubTargets
import CodeListing.Proofs.TemplateCache
import CodeListing.Proofs.TrailingStar
import CodeListing.Proofs.VersionText
import CodeListing.Proofs.Visits
import CodeListing.Proofs.WrapperEntry
import CodeListing.Provider.Basic
import CodeListing.Provider.Instrument
import CodeListing.Provider.Reading
import CodeListing.Remainder
import CodeListing.Report.Basic
import CodeListing.Resolver
import CodeListing.Run
import CodeListing.Scheduler
import CodeListing.Settings
import CodeListing.Snapshot.Basic
import CodeListing.Snapshot.Index
import CodeListing.Snapshot.MemoryRegion
import CodeListing.Source.Line
import CodeListing.Source.Mapping
import CodeListing.Source.Table
import CodeListing.Stub.Cache
import CodeListing.Stub.Follow
import CodeListing.Stub.Template
import CodeListing.Target.Architecture
import CodeListing.Target.Os
import CodeListing.Target.RuntimeVersion
import CodeListing.Text.Blank
import CodeListing.Text.Cased
import CodeListing.Text.HexBytes
import CodeListing.Text.Invisible
import CodeListing.Text.LowerCase
import CodeListing.Text.Numeral
import CodeListing.Text.Quoted
import CodeListing.Text.Ranges
import CodeListing.Text.Search
import CodeListing.Yaml.Node
import CodeListing.Yaml.Place
import CodeListing.Yaml.Reader
import CodeListing.Yaml.Scalar
import CodeListing.Yaml.Token
