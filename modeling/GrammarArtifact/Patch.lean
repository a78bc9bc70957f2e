import GrammarArtifact.Header

/-! Changes to an artifact's bytes, one place at a time. -/

namespace GrammarArtifact

inductive Patch where
  /-- Other bytes from an offset on; the length stays. -/
  | overwrite (offset : Nat) (data : Bytes)
  | truncate (length : Nat)
  | append (data : Bytes)
  | insert (offset : Nat) (data : Bytes)
  deriving DecidableEq

namespace Patch

def apply (bytes : Bytes) : Patch → Bytes
  | overwrite offset data => bytes.take offset ++ data ++ bytes.drop (offset + data.length)
  | truncate length => bytes.take length
  | append data => bytes ++ data
  | insert offset data => bytes.take offset ++ data ++ bytes.drop offset

def word (offset : Nat) (value : UInt32) : Patch := .overwrite offset (LittleEndian.word32 value)

def sectionOffset (s : Section) (offset : UInt32) : Patch := word (Layout.entryOffset s) offset

def sectionLength (s : Section) (length : UInt32) : Patch := word (Layout.entryOffset s + 4) length

def applyAll (patches : List Patch) (bytes : Bytes) : Bytes := patches.foldl apply bytes

end Patch

end GrammarArtifact
