import GrammarArtifact.Integrity
import GrammarArtifact.Region
import GrammarArtifact.Text.Quoted

/-! Loaded languages. A language gives access to the artifact it was loaded from; two languages are
the same when they wrap the same memory, whatever the bytes there are. -/

namespace GrammarArtifact

/-- An artifact that passed every check of a loader. -/
structure Language where
  artifact : Region
  header : Header
  name : String

namespace Language

def version (l : Language) : UInt32 := l.header.version

def counts (l : Language) : Counts := l.header.counts

def bytes (l : Language) : Bytes := l.artifact.bytes

def section? (l : Language) (s : Section) : Option Bytes := l.header.contents? l.bytes s

/-- Languages are told apart by the memory they wrap. -/
instance : BEq Language := ⟨fun a b => decide (Region.SameMemory a.artifact b.artifact)⟩

def countDistinct (languages : List Language) : Nat := languages.eraseDups.length

def shownFields (l : Language) : List (String × String) :=
  [("name", Text.quoted l.name), ("abi_version", toString l.version),
   ("symbol_count", toString l.counts.symbols), ("state_count", toString l.counts.states)]

/-- A description on one line. Two dots say that there is more to a language than is shown. -/
def describe (l : Language) : String :=
  let fields := l.shownFields.map fun (label, value) => s!"{label}: {value}, "
  "LanguageHandle \x7b " ++ String.join fields ++ ".. \x7d"

def describeLines (l : Language) : String :=
  let fields := l.shownFields.map fun (label, value) => s!"    {label}: {value},\n"
  "LanguageHandle \x7b\n" ++ String.join fields ++ "    ..\n\x7d"

end Language

end GrammarArtifact
