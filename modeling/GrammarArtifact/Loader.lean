import GrammarArtifact.Language

/-! Loading of artifacts. A loader checks that an artifact is there, that its version is one it
accepts, and that its structure holds together, in this order; the first failure is the answer. The
version comes before the structure because the layout of an artifact depends on it. -/

namespace GrammarArtifact

/-- Accepts the artifacts of a range of versions. -/
structure Loader where
  versions : VersionRange := .supported
  deriving DecidableEq

namespace Loader

instance : Inhabited Loader := ⟨{}⟩

/-- The language of an artifact, or why there is none. -/
def load (loader : Loader) : (artifact : Option Region) → Except LoadError Language
  | none => .error .missing
  | some artifact => do
    let bytes := artifact.bytes
    ensure (bytes ≠ []) .missing
    let version ← (Header.decodeVersion bytes).mapError LoadError.ofHeader
    ensure (version ∈ loader.versions) (.incompatible version loader.versions)
    let header ← (Header.decode bytes).mapError LoadError.ofHeader
    let name ← (header.check bytes).mapError LoadError.defective
    return { artifact, header, name }

end Loader

inductive LoadEvent where
  | loaded (language : String) (version symbols : UInt32)
  | rejected (kind : LoadError.Kind) (error : String)
  deriving DecidableEq

namespace LoadEvent

def ofOutcome : Except LoadError Language → LoadEvent
  | .ok l => .loaded l.name l.version l.counts.symbols
  | .error e => .rejected e.kind e.message

def message : LoadEvent → String
  | loaded .. => "grammar.load"
  | rejected .. => "grammar.load.rejected"

end LoadEvent

/-- A load together with the events it gave rise to. -/
structure LoadReport where
  outcome : Except LoadError Language
  events : List LoadEvent

/-- Loads an artifact and reports the one event of it. -/
def Loader.report (loader : Loader) (artifact : Option Region) : LoadReport :=
  let outcome := loader.load artifact
  { outcome, events := [.ofOutcome outcome] }

end GrammarArtifact
