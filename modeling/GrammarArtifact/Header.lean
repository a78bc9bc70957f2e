import GrammarArtifact.Bytes.LittleEndian
import GrammarArtifact.Ensure
import GrammarArtifact.Layout

/-! The header of an artifact and its two directions: `Header.encode` writes the magic, the version,
the six counts, the section count and the directory; `Header.decode` reads them back and refuses a
byte string that is too short, carries another magic or declares a directory of the wrong size.
Section contents play no part here. -/

namespace GrammarArtifact

/-- Where a section lies, counted from the start of the payload. -/
structure Extent where
  offset : UInt32
  length : UInt32
  deriving DecidableEq

namespace Extent

/-- One past the last payload byte of the section. -/
def stop (e : Extent) : Nat := e.offset.toNat + e.length.toNat

def encode (e : Extent) : Bytes := LittleEndian.word32 e.offset ++ LittleEndian.word32 e.length

@[simp] theorem length_encode (e : Extent) : e.encode.length = Layout.entryLength := by
  simp [encode, Layout.entryLength]

end Extent

inductive Count where
  | symbols
  | tokens
  | externals
  | states
  | largeStates
  | fields
  deriving DecidableEq

def Count.label : Count → String
  | symbols => "symbol_count"
  | tokens => "token_count"
  | externals => "external_token_count"
  | states => "state_count"
  | largeStates => "large_state_count"
  | fields => "field_count"

instance : ToString Count := ⟨Count.label⟩

structure Counts where
  symbols : UInt32
  tokens : UInt32
  externals : UInt32
  states : UInt32
  largeStates : UInt32
  fields : UInt32
  deriving DecidableEq

namespace Counts

def get (c : Counts) : Count → UInt32
  | .symbols => c.symbols
  | .tokens => c.tokens
  | .externals => c.externals
  | .states => c.states
  | .largeStates => c.largeStates
  | .fields => c.fields

def encode (c : Counts) : Bytes :=
  [c.symbols, c.tokens, c.externals, c.states, c.largeStates, c.fields].flatMap LittleEndian.word32

@[simp] theorem length_encode (c : Counts) : c.encode.length = 24 := by simp [encode]

end Counts

/-- One extent for each of the given sections. -/
abbrev Directory (sections : List Section) : Type :=
  { extents : List Extent // extents.length = sections.length }

namespace Directory

def nil : Directory [] := ⟨[], rfl⟩

def cons {s : Section} {rest : List Section} (e : Extent) (d : Directory rest) :
    Directory (s :: rest) :=
  ⟨e :: d.1, congrArg Nat.succ d.2⟩

end Directory

/-- A header whose directory fits its version. -/
structure Header where
  version : UInt32
  counts : Counts
  directory : Directory (Section.ofVersion version)

inductive HeaderError where
  | truncated (needed found : Nat)
  | badMagic
  | sectionCount (version : UInt32) (expected : Nat) (found : UInt32)
  deriving DecidableEq

namespace HeaderError

def message : HeaderError → String
  | truncated needed found =>
    s!"artifact truncated: header needs {needed} bytes, artifact has {found}"
  | badMagic => "bad magic bytes, not a grammar table artifact"
  | sectionCount version expected found =>
    s!"version {version} artifacts have {expected} sections, header declares {found}"

end HeaderError

namespace Header

def extent? (h : Header) (s : Section) : Option Extent := h.directory.1[s.index]?

/-- The sections that are present with their extents, in directory order. -/
def sections (h : Header) : List (Section × Extent) :=
  (Section.ofVersion h.version).zip h.directory.1

def payloadOffset (h : Header) : Nat := Layout.headerLength h.directory.1.length

/-- The bytes of a header, up to the payload. -/
def encode (h : Header) : Bytes :=
  Layout.magic ++ LittleEndian.word32 h.version ++ h.counts.encode ++
    LittleEndian.word32 (UInt32.ofNat h.directory.1.length) ++
    h.directory.1.flatMap Extent.encode

/-! ## Decoding -/

def word (bytes : Bytes) (offset : Nat) : Except HeaderError UInt32 :=
  match LittleEndian.word32? bytes offset with
  | some n => .ok n
  | none => .error (.truncated (offset + 4) bytes.length)

/-- The version of an artifact, read as soon as the magic is found. -/
def decodeVersion (bytes : Bytes) : Except HeaderError UInt32 := do
  ensure (Layout.tagLength ≤ bytes.length) (.truncated Layout.tagLength bytes.length)
  ensure (bytes.take Layout.magic.length = Layout.magic) .badMagic
  word bytes Layout.version

def decodeCounts (bytes : Bytes) : Except HeaderError Counts := do
  let symbols ← word bytes Layout.symbolCount
  let tokens ← word bytes Layout.tokenCount
  let externals ← word bytes Layout.externalCount
  let states ← word bytes Layout.stateCount
  let largeStates ← word bytes Layout.largeStateCount
  let fields ← word bytes Layout.fieldCount
  return { symbols, tokens, externals, states, largeStates, fields }

def decodeExtent (bytes : Bytes) (s : Section) : Except HeaderError Extent := do
  let offset ← word bytes (Layout.entryOffset s)
  let length ← word bytes (Layout.entryOffset s + 4)
  return { offset, length }

def decodeDirectory (bytes : Bytes) :
    (sections : List Section) → Except HeaderError (Directory sections)
  | [] => .ok .nil
  | s :: rest => do
    let extent ← decodeExtent bytes s
    let later ← decodeDirectory bytes rest
    return later.cons extent

def decode (bytes : Bytes) : Except HeaderError Header := do
  let version ← decodeVersion bytes
  ensure (Layout.fixedLength ≤ bytes.length) (.truncated Layout.fixedLength bytes.length)
  let expected := Section.ofVersion version
  let declared ← word bytes Layout.sectionCount
  ensure (declared.toNat = expected.length) (.sectionCount version expected.length declared)
  let needed := Layout.headerLength expected.length
  ensure (needed ≤ bytes.length) (.truncated needed bytes.length)
  let directory ← decodeDirectory bytes expected
  let counts ← decodeCounts bytes
  return { version, counts, directory }

/-! ## Sizes -/

theorem length_directory (h : Header) :
    h.directory.1.length = (Section.ofVersion h.version).length := h.directory.2

theorem length_encode (h : Header) : h.encode.length = h.payloadOffset := by
  rw [encode, List.length_append, Bytes.length_flatMap_of_length Extent.length_encode]
  simp [payloadOffset, Layout.headerLength, Layout.fixedLength, Layout.directory,
    Layout.entryLength, Layout.magic]

theorem map_fst_sections (h : Header) : h.sections.map Prod.fst = Section.ofVersion h.version := by
  simp [sections, List.map_fst_zip, h.length_directory]

end Header

end GrammarArtifact
