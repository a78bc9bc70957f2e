import GrammarArtifact.Bundled
import GrammarArtifact.Bytes
import GrammarArtifact.Bytes.LittleEndian
import GrammarArtifact.Decimal.Binary64
import GrammarArtifact.Decimal.Shortest
import GrammarArtifact.Draft
import GrammarArtifact.Draft.Encode
import GrammarArtifact.Ensure
import GrammarArtifact.FileStore
import GrammarArtifact.Grammar
import GrammarArtifact.Grammar.Compile
import GrammarArtifact.Grammar.Read
import GrammarArtifact.Grammar.Stored
import GrammarArtifact.Header
import GrammarArtifact.Integrity
import GrammarArtifact.Language
import GrammarArtifact.Layout
import GrammarArtifact.LoadError
import GrammarArtifact.Loader
import GrammarArtifact.Loader.Config
import GrammarArtifact.Patch
import GrammarArtifact.Region
import GrammarArtifact.Runtime
import GrammarArtifact.Schema.Fault
import GrammarArtifact.Schema.Mismatch
import GrammarArtifact.Schema.Record
import GrammarArtifact.Section
import GrammarArtifact.Session
import GrammarArtifact.StringTable
import GrammarArtifact.Symbol
import GrammarArtifact.Text.Quoted
import GrammarArtifact.Text.Unprintable
import GrammarArtifact.Toml.Document
import GrammarArtifact.Toml.Moment
import GrammarArtifact.Toml.Node
import GrammarArtifact.Toml.Number
import GrammarArtifact.Toml.QuotedText
import GrammarArtifact.Toml.Readable
import GrammarArtifact.Toml.Reader
import GrammarArtifact.Toml.Statement
import GrammarArtifact.Toml.Value
import GrammarArtifact.VersionRange
import GrammarArtifact.Proofs.HeaderDecoding
import GrammarArtifact.Proofs.StringTables
import GrammarArtifact.Proofs.Structure
import GrammarArtifact.Proofs.Format
import GrammarArtifact.Proofs.Acceptance
import GrammarArtifact.Proofs.Capacity
import GrammarArtifact.Proofs.Placement
import GrammarArtifact.Proofs.RoundTrip
import GrammarArtifact.Proofs.Defects
import GrammarArtifact.Proofs.Compilation
import GrammarArtifact.Proofs.Slices
import GrammarArtifact.Proofs.Stages
import GrammarArtifact.Proofs.VersionGate
import GrammarArtifact.Proofs.Truncation
import GrammarArtifact.Proofs.Inspection
import GrammarArtifact.Proofs.Access
import GrammarArtifact.Proofs.HeaderWords
import GrammarArtifact.Proofs.Damage
import GrammarArtifact.Proofs.Checks
import GrammarArtifact.Proofs.Diagnosis
import GrammarArtifact.Proofs.Canonical
import GrammarArtifact.Proofs.Injectivity
import GrammarArtifact.Proofs.LayoutOrder
import GrammarArtifact.Proofs.Limits
import GrammarArtifact.Proofs.VersionChange
import GrammarArtifact.Proofs.Terminals
import GrammarArtifact.Proofs.HeaderReading
import GrammarArtifact.Proofs.Fallbacks
import GrammarArtifact.Proofs.Documents
import GrammarArtifact.Proofs.Writing
import GrammarArtifact.Proofs.Records
import GrammarArtifact.Proofs.Descriptions
import GrammarArtifact.Proofs.StringCounts
import GrammarArtifact.Proofs.Storage
import GrammarArtifact.Proofs.Configurations
