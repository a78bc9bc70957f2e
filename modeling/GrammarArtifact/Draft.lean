import GrammarArtifact.Layout
import GrammarArtifact.StringTable
import GrammarArtifact.Symbol

/-! Drafts of artifacts: everything that an encoder needs to know about a grammar table. The parse
actions and lexer modes are not known to a draft; their sections are filled with zeros at the size
that the counts imply. -/

namespace GrammarArtifact

/-- The contents of an artifact that is yet to be written. -/
structure Draft where
  name : String
  version : UInt32 := Layout.currentVersion
  symbols : List Symbol := []
  fields : List String := []
  /-- How many leading symbols are terminals. -/
  tokens : UInt32 := 0
  /-- How many of the terminals come from an external scanner. -/
  externals : UInt32 := 0
  states : UInt32 := 0
  /-- How many states have a dense row in the parse table. -/
  largeStates : UInt32 := 0
  deriving DecidableEq

namespace Draft

def addSymbol (d : Draft) (s : Symbol) : Draft := { d with symbols := d.symbols ++ [s] }

def addField (d : Draft) (field : String) : Draft := { d with fields := d.fields ++ [field] }

def symbolNames (d : Draft) : List String := d.symbols.map (·.name)

def symbolCount (d : Draft) : UInt32 := UInt32.ofNat d.symbols.length

def fieldCount (d : Draft) : UInt32 := UInt32.ofNat d.fields.length

/-- The length of a section. The lengths of zero-filled tables are products of sixty-four bits. -/
def sectionLength (d : Draft) : Section → Nat
  | .name => d.name.utf8ByteSize
  | .symbolNames => StringTable.lengthFor d.symbolNames
  | .symbolMetadata => d.symbols.length * Layout.metadataEntry
  | .fieldNames => StringTable.lengthFor d.fields
  | .parseTable =>
    (d.largeStates.toUInt64 * d.symbolCount.toUInt64 * UInt64.ofNat Layout.parseTableEntry).toNat
  | .lexModes => (d.states.toUInt64 * UInt64.ofNat Layout.lexModeEntry).toNat
  | .primaryStateIds => d.states.toNat * Layout.stateIdEntry

end Draft

end GrammarArtifact
