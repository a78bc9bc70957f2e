import GrammarArtifact.Header
import GrammarArtifact.VersionRange

/-! Why an artifact is refused. Each error carries the values that contradict one another, and
`message` puts them into words. -/

namespace GrammarArtifact

/-- The structural check that an artifact failed. -/
inductive Defect where
  | header (e : HeaderError)
  /-- A section reaches beyond the payload. -/
  | dangling (s : Section) (extent : Extent) (payloadLength : Nat)
  /-- A section starts before the one in front of it has stopped. -/
  | overlapping (previous s : Section)
  | inconsistentCounts (count : Count) (value : UInt32) (bound : Count) (limit : UInt32)
  | tooManyStates (states : UInt32)
  | badName
  /-- A string table has bytes after its last terminator. -/
  | unterminated (s : Section)
  | symbolCount (declared : UInt32) (actual : Nat)
  | fieldCount (declared : UInt32) (actual : Nat)
  | sectionLength (s : Section) (expected actual : Nat)
  deriving DecidableEq

namespace Defect

def message : Defect → String
  | header e => e.message
  | dangling s extent payloadLength =>
    s!"{s} section ({extent.offset}+{extent.length}) extends past the {payloadLength}-byte payload"
  | overlapping previous s => s!"{s} section overlaps {previous}"
  | inconsistentCounts count value bound limit => s!"{count} ({value}) exceeds {bound} ({limit})"
  | tooManyStates states =>
    s!"state_count ({states}) exceeds the 65536 states addressable by u16 state ids"
  | badName => "language name is empty or not valid UTF-8"
  | unterminated s => s!"{s} section ends inside an unterminated string"
  | symbolCount declared actual =>
    s!"header declares {declared} symbols, symbol name table holds {actual}"
  | fieldCount declared actual =>
    s!"header declares {declared} fields, field name table holds {actual}"
  | sectionLength s expected actual =>
    s!"{s} section is {actual} bytes, counts imply {expected}"

end Defect

inductive LoadError.Kind where
  | missing
  | incompatible
  | defective
  deriving DecidableEq

def LoadError.Kind.label : LoadError.Kind → String
  | missing => "MissingArtifact"
  | incompatible => "IncompatibleVersion"
  | defective => "CorruptArtifact"

inductive LoadError where
  | missing
  | incompatible (found : UInt32) (expected : VersionRange)
  | defective (d : Defect)
  deriving DecidableEq

namespace LoadError

def kind : LoadError → Kind
  | missing => .missing
  | incompatible .. => .incompatible
  | defective _ => .defective

/-- An artifact without a readable header is defective. -/
def ofHeader (e : HeaderError) : LoadError := .defective (.header e)

def defect? : LoadError → Option Defect
  | defective d => some d
  | _ => none

def message : LoadError → String
  | missing => "no grammar artifact supplied"
  | incompatible found expected =>
    s!"incompatible grammar artifact version {found}, runtime supports {expected}"
  | defective d => s!"corrupt grammar artifact: {d.message}"

end LoadError

end GrammarArtifact
