import CommandSet.Artifacts
import CommandSet.CodeLine
import CommandSet.CommandLine
import CommandSet.FileStore
import CommandSet.FileTree
import CommandSet.Firmware.Bridge
import CommandSet.Firmware.BridgeHeader
import CommandSet.Firmware.Codec
import CommandSet.Firmware.Descriptor
import CommandSet.Firmware.Handler
import CommandSet.Firmware.MainHeader
import CommandSet.Firmware.MainModule
import CommandSet.Firmware.Page
import CommandSet.Firmware.Record
import CommandSet.Firmware.Statement
import CommandSet.Forest
import CommandSet.Generation
import CommandSet.Main
import CommandSet.Naming
import CommandSet.Path
import CommandSet.Prepared
import CommandSet.Presence
import CommandSet.Proofs.Firmware.Accesses
import CommandSet.Proofs.Firmware.Arena
import CommandSet.Proofs.Firmware.Assignments
import CommandSet.Proofs.Firmware.AttributeLists
import CommandSet.Proofs.Firmware.Code
import CommandSet.Proofs.Firmware.CommandTables
import CommandSet.Proofs.Firmware.Comments
import CommandSet.Proofs.Firmware.Constants
import CommandSet.Proofs.Firmware.Counts
import CommandSet.Proofs.Firmware.Declarations
import CommandSet.Proofs.Firmware.DeclaredPaths
import CommandSet.Proofs.Firmware.DefinitionOrder
import CommandSet.Proofs.Firmware.DescriptorTables
import CommandSet.Proofs.Firmware.Elements
import CommandSet.Proofs.Firmware.Enumerators
import CommandSet.Proofs.Firmware.Execution
import CommandSet.Proofs.Firmware.FunctionBodies
import CommandSet.Proofs.Firmware.Functions
import CommandSet.Proofs.Firmware.Handlers
import CommandSet.Proofs.Firmware.HeaderText
import CommandSet.Proofs.Firmware.LocalNames
import CommandSet.Proofs.Firmware.Macros
import CommandSet.Proofs.Firmware.MemberNames
import CommandSet.Proofs.Firmware.Nesting
import CommandSet.Proofs.Firmware.PayloadPaths
import CommandSet.Proofs.Firmware.PresenceBits
import CommandSet.Proofs.Firmware.PresenceFlags
import CommandSet.Proofs.Firmware.Remarks
import CommandSet.Proofs.Firmware.Signatures
import CommandSet.Proofs.Firmware.Transfers
import CommandSet.Proofs.Firmware.Undescribed
import CommandSet.Proofs.Firmware.Visits
import CommandSet.Proofs.Generation.Arguments
import CommandSet.Proofs.Generation.CommandIds
import CommandSet.Proofs.Generation.CompletePrototypes
import CommandSet.Proofs.Generation.Descriptions
import CommandSet.Proofs.Generation.Locations
import CommandSet.Proofs.Generation.Prototypes
import CommandSet.Proofs.Generation.Runs
import CommandSet.Proofs.Protocol.ChildrenFirst
import CommandSet.Proofs.Protocol.FaultOrder
import CommandSet.Proofs.Protocol.Groups
import CommandSet.Proofs.Protocol.Names
import CommandSet.Proofs.Protocol.Partition
import CommandSet.Proofs.Protocol.Paths
import CommandSet.Proofs.Protocol.Positions
import CommandSet.Proofs.Protocol.RepeatedNames
import CommandSet.Proofs.Protocol.Roles
import CommandSet.Proofs.Protocol.Scopes
import CommandSet.Proofs.Protocol.Sites
import CommandSet.Proofs.Protocol.Sorting
import CommandSet.Proofs.Protocol.Undescribed
import CommandSet.Proofs.Protocol.Validation
import CommandSet.Proofs.Protocol.WellFormed
import CommandSet.Proofs.Recovery.Acceptance
import CommandSet.Proofs.Recovery.Braces
import CommandSet.Proofs.Recovery.Conserved
import CommandSet.Proofs.Recovery.DefaultArms
import CommandSet.Proofs.Recovery.Edits
import CommandSet.Proofs.Recovery.Fallbacks
import CommandSet.Proofs.Recovery.Fresh
import CommandSet.Proofs.Recovery.Kept
import CommandSet.Proofs.Recovery.Owners
import CommandSet.Proofs.Recovery.ReadBack
import CommandSet.Proofs.Recovery.Readable
import CommandSet.Proofs.Recovery.Regeneration
import CommandSet.Proofs.Recovery.Reimport
import CommandSet.Proofs.Recovery.Removal
import CommandSet.Proofs.Recovery.Scanning
import CommandSet.Proofs.Recovery.Sections
import CommandSet.Proofs.Recovery.Verdicts
import CommandSet.Proofs.Recovery.WrittenBack
import CommandSet.Proofs.Schema.Clauses
import CommandSet.Proofs.Schema.Escapes
import CommandSet.Proofs.Schema.Numbers
import CommandSet.Proofs.Schema.ParsedNames
import CommandSet.Proofs.Schema.Quoting
import CommandSet.Proofs.Schema.Reading
import CommandSet.Proofs.Schema.RoundTrip
import CommandSet.Proofs.Schema.Written
import CommandSet.Proofs.Sessions
import CommandSet.Proofs.Text.Between
import CommandSet.Proofs.Text.Blocks
import CommandSet.Proofs.Text.ByteOrder
import CommandSet.Proofs.Text.Joints
import CommandSet.Proofs.Text.Lines
import CommandSet.Proofs.Text.Mentions
import CommandSet.Proofs.Text.Replacement
import CommandSet.Proofs.Text.Search
import CommandSet.Proofs.Text.Spellings
import CommandSet.Proofs.Text.Tokens
import CommandSet.Proofs.Text.Uncommented
import CommandSet.Proofs.Text.Words
import CommandSet.Proofs.Typed.Closed
import CommandSet.Proofs.Typed.CodecFunctions
import CommandSet.Proofs.Typed.CodecPairs
import CommandSet.Proofs.Typed.Codecs
import CommandSet.Proofs.Typed.CommandArms
import CommandSet.Proofs.Typed.Dispatch
import CommandSet.Proofs.Typed.Encoding
import CommandSet.Proofs.Typed.Groups
import CommandSet.Proofs.Typed.ImportedNames
import CommandSet.Proofs.Typed.ItemClashes
import CommandSet.Proofs.Typed.ItemNames
import CommandSet.Proofs.Typed.Items
import CommandSet.Proofs.Typed.Matches
import CommandSet.Proofs.Typed.PayloadFields
import CommandSet.Proofs.Typed.References
import CommandSet.Proofs.Typed.ResolvedFunctions
import CommandSet.Proofs.Typed.ResolvedLines
import CommandSet.Proofs.Typed.TypeNames
import CommandSet.Proofs.Typed.Undescribed
import CommandSet.Protocol.Basic
import CommandSet.Protocol.DataType
import CommandSet.Recovery.Code
import CommandSet.Recovery.Fallback
import CommandSet.Recovery.Line
import CommandSet.Recovery.Recover
import CommandSet.Recovery.Scanner
import CommandSet.Schema.Grammar
import CommandSet.Schema.Numeral
import CommandSet.Schema.Parsing
import CommandSet.Schema.Reader
import CommandSet.Schema.Report
import CommandSet.Session
import CommandSet.Text.Blank
import CommandSet.Text.CaseTables
import CommandSet.Text.CodePointRun
import CommandSet.Text.Encoding
import CommandSet.Text.EscapeTable
import CommandSet.Text.Hexadecimal
import CommandSet.Text.LetterCase
import CommandSet.Text.Lines
import CommandSet.Text.Quoted
import CommandSet.Text.Search
import CommandSet.Typed.Bridge
import CommandSet.Typed.Codec
import CommandSet.Typed.Descriptor
import CommandSet.Typed.MainModule
import CommandSet.Typed.Match
import CommandSet.Typed.Payload
import CommandSet.Validation
