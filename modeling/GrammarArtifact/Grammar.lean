import GrammarArtifact.Layout
import GrammarArtifact.Symbol

/-! Descriptions of grammar tables, as the author of a grammar writes them. -/

namespace GrammarArtifact

structure GrammarSymbol where
  name : String
  kind : SymbolKind := .rule
  deriving DecidableEq

structure StateNumbers where
  total : UInt32
  /-- How many states have a dense row in the parse table. -/
  large : UInt32
  deriving DecidableEq

structure Grammar where
  name : String
  version : UInt32 := Layout.currentVersion
  states : StateNumbers
  fields : List String := []
  symbols : List GrammarSymbol := []
  deriving DecidableEq

end GrammarArtifact
