import GrammarArtifact.Grammar.Compile
import GrammarArtifact.Schema.Record

/-! Table descriptions as TOML documents. -/

namespace GrammarArtifact

open Schema (Record Field Reading Mismatch)
open Toml (Value)

namespace SymbolKind

def ofName (name : String) : Except Mismatch SymbolKind :=
  match ofLabel? name with
  | some kind => .ok kind
  | none => .error (.unknownVariant name (all.map label))

/-- Kinds hold nothing, so what stands under the name of one has to be empty. -/
def checkPayload : Reading Unit
  | .array [] | .table [] => .ok ()
  | v => .error (.variantPayload v)

/-- A kind in a document: its name, or a table with its name as the only key. -/
def read : Reading SymbolKind
  | .string name => ofName name
  | .table [] => .error .noVariant
  | .table [(name, payload)] => do
    let kind ← ofName name
    checkPayload payload
    return kind
  | .table _ => .error .severalVariants
  | _ => .error .notVariant

end SymbolKind

namespace GrammarSymbol

def record : Record where
  name := "SymbolSpec"
  fields := [.of "name" Schema.text, .of "kind" SymbolKind.read]

/-- A symbol in a document. A symbol without a kind is a rule. -/
def read : Reading GrammarSymbol := fun v => do
  let source ← record.ofValue v
  let name ← record.required source "name" Schema.text
  let kind ← record.optional source "kind" SymbolKind.read .rule
  return { name, kind }

end GrammarSymbol

namespace StateNumbers

def record : Record where
  name := "StateCounts"
  fields := [.of "total" Schema.word, .of "large" Schema.word]

def read : Reading StateNumbers := fun v => do
  let source ← record.ofValue v
  let total ← record.required source "total" Schema.word
  let large ← record.required source "large" Schema.word
  return { total, large }

end StateNumbers

namespace Grammar

def readFields : Reading (List String) := Schema.sequence Schema.text

def readSymbols : Reading (List GrammarSymbol) := Schema.sequence GrammarSymbol.read

def record : Record where
  name := "grammar table description"
  fields := [.of "name" Schema.text, .of "version" Schema.word, .of "states" StateNumbers.read,
    .of "fields" readFields, .of "symbols" readSymbols]

def ofDocument (document : Toml.Document) : Except Mismatch Grammar := do
  let source ← record.ofEntries document
  let name ← record.required source "name" Schema.text
  let version ← record.optional source "version" Schema.word Layout.currentVersion
  let states ← record.required source "states" StateNumbers.read
  let fields ← record.optional source "fields" readFields []
  let symbols ← record.optional source "symbols" readSymbols []
  return { name, version, states, fields, symbols }

def ofTextWith (parse : String → Option Toml.Document) (text : String) :
    Except CompileError Grammar :=
  (Schema.ofTextWith parse ofDocument text).mapError .text

def ofText (text : String) : Except CompileError Grammar := ofTextWith Toml.Document.ofText? text

end Grammar

end GrammarArtifact
