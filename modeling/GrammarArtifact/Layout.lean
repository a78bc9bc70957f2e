import GrammarArtifact.Section
import GrammarArtifact.Bytes

/-! The fixed layout of an artifact: the tag, eight words, the directory, the payload. -/

namespace GrammarArtifact

namespace Layout

/-- The bytes that every artifact starts with: `TSLANGv1`. -/
def magic : Bytes := [0x54, 0x53, 0x4c, 0x41, 0x4e, 0x47, 0x76, 0x31]

/-- The version of an artifact unless another one is asked for. -/
def currentVersion : UInt32 := 14

/-! ## Offsets of the magic and the header words -/

def start : Nat := 0

def version : Nat := 8

def symbolCount : Nat := 12

def tokenCount : Nat := 16

def externalCount : Nat := 20

def stateCount : Nat := 24

def largeStateCount : Nat := 28

def fieldCount : Nat := 32

def sectionCount : Nat := 36

/-- The directory follows the last fixed word. -/
def directory : Nat := 40

/-! ## Lengths in bytes -/

def tagLength : Nat := 12

def fixedLength : Nat := directory

/-- Bytes of a directory entry: an offset and a length. -/
def entryLength : Nat := 8

def entryOffset (s : Section) : Nat := directory + s.index * entryLength

/-- Bytes of a header with a directory of `sections` entries. -/
def headerLength (sections : Nat) : Nat := fixedLength + sections * entryLength

def metadataEntry : Nat := 1

def parseTableEntry : Nat := 2

def lexModeEntry : Nat := 4

def stateIdEntry : Nat := 2

/-- State ids have sixteen bits, so there are at most this many states. -/
def maxStates : UInt32 := 65536

/-- Offsets, lengths and counts have thirty-two bits. -/
def maxWord : Nat := 4294967295

/-- Lengths of tables are computed with sixty-four bits. -/
def maxLong : Nat := 18446744073709551615

theorem length_magic : magic.length = version := rfl

end Layout

end GrammarArtifact
