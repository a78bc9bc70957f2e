import GrammarArtifact.Draft
import GrammarArtifact.Header

/-! Encoding of drafts. The lengths of the sections fix the directory before any section is written,
so a draft that is too large is refused without building it. -/

namespace GrammarArtifact

inductive EncodeError where
  | tooManyStates (states : UInt32)
  | tooManySymbols
  | tooManyFields
  | sectionTooLarge (s : Section)
  deriving DecidableEq

namespace EncodeError

def message : EncodeError → String
  | tooManyStates states => s!"{states} states exceed the 65536 addressable by u16 state ids"
  | tooManySymbols => "symbol count does not fit in a u32"
  | tooManyFields => "field count does not fit in a u32"
  | sectionTooLarge s => s!"{s} section exceeds the 4 GiB section limit"

end EncodeError

namespace Draft

def sectionBytes (d : Draft) : Section → Bytes
  | .name => Bytes.ofText d.name
  | .symbolNames => StringTable.encode (d.symbolNames.map Bytes.ofText)
  | .symbolMetadata => d.symbols.map fun s => s.flags.bits
  | .fieldNames => StringTable.encode (d.fields.map Bytes.ofText)
  | .parseTable => Bytes.zeros (d.sectionLength .parseTable)
  | .lexModes => Bytes.zeros (d.sectionLength .lexModes)
  | .primaryStateIds => (List.range d.states.toNat).flatMap LittleEndian.word16

def counts (d : Draft) : Counts where
  symbols := d.symbolCount
  tokens := d.tokens
  externals := d.externals
  states := d.states
  largeStates := d.largeStates
  fields := d.fieldCount

/-- Places sections one after another, the first one at `offset`. An offset or a length that takes
more than a word is the fault of the section it belongs to. -/
def place (d : Draft) :
    (offset : Nat) → (sections : List Section) → Except EncodeError (Directory sections)
  | _, [] => .ok .nil
  | offset, s :: rest => do
    let length := d.sectionLength s
    ensure (offset ≤ Layout.maxWord ∧ length ≤ Layout.maxWord) (.sectionTooLarge s)
    let later ← d.place (offset + length) rest
    return later.cons { offset := UInt32.ofNat offset, length := UInt32.ofNat length }

def header (d : Draft) : Except EncodeError Header := do
  ensure (d.states ≤ Layout.maxStates) (.tooManyStates d.states)
  ensure (d.symbols.length ≤ Layout.maxWord) .tooManySymbols
  ensure (d.fields.length ≤ Layout.maxWord) .tooManyFields
  let directory ← d.place 0 (Section.ofVersion d.version)
  return { version := d.version, counts := d.counts, directory }

def payload (d : Draft) : Bytes := (Section.ofVersion d.version).flatMap d.sectionBytes

def encode (d : Draft) : Except EncodeError Bytes := do
  let header ← d.header
  return header.encode ++ d.payload

/-- Every section is as long as the counts and names of the draft say. -/
theorem length_sectionBytes (d : Draft) (s : Section) :
    (d.sectionBytes s).length = d.sectionLength s := by
  cases s with
  | name => rfl
  | symbolNames | fieldNames => exact StringTable.length_encode_ofText _
  | symbolMetadata => simp [sectionBytes, sectionLength, Layout.metadataEntry]
  | parseTable | lexModes => exact Bytes.length_zeros
  | primaryStateIds =>
    rw [sectionBytes, Bytes.length_flatMap_of_length LittleEndian.length_word16, List.length_range]
    rfl

end Draft

end GrammarArtifact
