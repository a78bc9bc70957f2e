import GrammarArtifact.Loader

/-! Parsing runtimes. A runtime declares the versions it can execute and takes languages; it does
not check the version of a language it is given. -/

namespace GrammarArtifact

/-- A runtime and the languages installed in it so far, oldest first. -/
structure Runtime where
  versions : VersionRange := .supported
  installed : List Language := []

namespace Runtime

/-- The loader that accepts exactly what the runtime can execute. -/
def loader (r : Runtime) : Loader := { versions := r.versions }

def install (r : Runtime) (l : Language) : Runtime := { r with installed := r.installed ++ [l] }

def supports (r : Runtime) (l : Language) : Bool := l.version ∈ r.versions

end Runtime

end GrammarArtifact
