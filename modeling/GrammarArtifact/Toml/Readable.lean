import GrammarArtifact.Toml.Moment

/-! Documents that can be read as a whole. A text may be a document and still hold values that
cannot be read: words that are set out like numbers and denote none, and tables that stand for a
moment and hold something else. -/

namespace GrammarArtifact

namespace Toml

/-- Whether a table stands for a moment. Keys are in order, so it is the first one that tells. -/
def standsForMoment : List (String × Value) → Bool
  | (key, _) :: _ => key = Moment.key
  | [] => false

/-- Whether the first entry of a table is a moment in writing. -/
def holdsMoment : List (String × Value) → Bool
  | (_, .string written) :: _ => Moment.isMoment written.toList
  | _ => false

mutual

/-- Whether everything in a value can be read. What stands for a moment is read no further. -/
def Value.isReadable : Value → Bool
  | .unreadable _ => false
  | .array items => allReadable items
  | .table entries =>
    if standsForMoment entries then holdsMoment entries else entriesReadable entries
  | .string _ | .integer _ | .float _ | .boolean _ | .moment _ => true

def allReadable : List Value → Bool
  | [] => true
  | v :: rest => v.isReadable && allReadable rest

def entriesReadable : List (String × Value) → Bool
  | [] => true
  | (_, v) :: rest => v.isReadable && entriesReadable rest

end

/-- Whether everything in a document can be read. The document itself stands for no moment. -/
def Document.isReadable (document : Document) : Bool := entriesReadable document

end Toml

end GrammarArtifact
