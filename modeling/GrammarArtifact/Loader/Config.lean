import GrammarArtifact.Loader
import GrammarArtifact.Schema.Fault
import GrammarArtifact.Schema.Record

/-! Loader configurations. A configuration is a TOML document with at most one entry, the range of
versions that the loader accepts. -/

namespace GrammarArtifact

open Schema (Record Field Reading Mismatch)

namespace VersionRange

def record : Record where
  name := "RawRange"
  fields := [.of "min" Schema.word, .of "max" Schema.word]

/-- A range in a document. Inverted bounds are found when both are read. -/
def read : Reading VersionRange := fun v => do
  let source ← record.ofValue v
  let min ← record.required source "min" Schema.word
  let max ← record.required source "max" Schema.word
  (VersionRange.ofBounds min max).mapError Mismatch.invertedRange

end VersionRange

namespace Loader

def record : Record where
  name := "loader configuration"
  fields := [.of "versions" VersionRange.read]

def ofDocument (document : Toml.Document) : Except Mismatch Loader := do
  let source ← record.ofEntries document
  let versions ← record.optional source "versions" VersionRange.read .supported
  return { versions }

def ofTextWith (parse : String → Option Toml.Document) (text : String) :
    Except Schema.Fault Loader :=
  Schema.ofTextWith parse ofDocument text

def ofText (text : String) : Except Schema.Fault Loader := ofTextWith Toml.Document.ofText? text

/-- The message about a text that is no configuration. -/
def describeFault (fault : Schema.Fault) : String :=
  "failed to parse loader config" ++ fault.detail

end Loader

end GrammarArtifact
