import GrammarArtifact.Draft.Encode
import GrammarArtifact.FileStore
import GrammarArtifact.Grammar
import GrammarArtifact.Schema.Fault

/-! Compilation of table descriptions. The draft of a description has the end symbol in front of the
described symbols, and counts the terminals, which have to come first. -/

namespace GrammarArtifact

inductive CompileError where
  | file (path : String) (e : FileError)
  /-- A text that is no description. -/
  | text (fault : Schema.Fault)
  | terminalAfterRule (name : String)
  | encode (e : EncodeError)

namespace CompileError

def message : CompileError → String
  | file path e => s!"i/o error on {path}: {e.message}"
  | text fault => "invalid grammar table description" ++ fault.detail
  | terminalAfterRule name =>
    s!"terminal symbol `{name}` follows a non-terminal; terminals must come first"
  | encode e => e.message

end CompileError

/-- The symbol that stands for the end of the input. It is always the first. -/
def Symbol.endOfInput : Symbol := ⟨"end", .empty⟩

def GrammarSymbol.stored (s : GrammarSymbol) : Symbol := ⟨s.name, s.kind.flags⟩

/-- A draft under construction, with the terminals counted so far. -/
structure Assembly where
  draft : Draft
  tokens : UInt32
  externals : UInt32
  /-- A non-terminal has been met, so no terminal may follow. -/
  inRules : Bool

namespace Assembly

/-- The end symbol is a terminal and comes before the described ones. -/
def start (g : Grammar) : Assembly where
  draft := Draft.addSymbol { name := g.name, version := g.version } .endOfInput
  tokens := 1
  externals := 0
  inRules := false

def add (a : Assembly) (s : GrammarSymbol) : Except CompileError Assembly :=
  if s.kind.isTerminal then do
    ensure (a.inRules = false) (.terminalAfterRule s.name)
    return { a with
      draft := a.draft.addSymbol s.stored
      tokens := a.tokens + 1
      externals := if s.kind = .external then a.externals + 1 else a.externals }
  else
    return { a with draft := a.draft.addSymbol s.stored, inRules := true }

end Assembly

namespace Grammar

/-- The draft of an artifact with the described symbols, fields and counts. -/
def draft (g : Grammar) : Except CompileError Draft := do
  let assembly ← g.symbols.foldlM Assembly.add (.start g)
  let draft := g.fields.foldl Draft.addField assembly.draft
  return { draft with
    tokens := assembly.tokens
    externals := assembly.externals
    states := g.states.total
    largeStates := g.states.large }

def compile (g : Grammar) : Except CompileError Bytes := do
  let draft ← g.draft
  draft.encode.mapError .encode

end Grammar

end GrammarArtifact
