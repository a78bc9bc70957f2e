/-! Symbols of a grammar: the flags that an artifact stores for each, and the kinds that a table
description gives them. -/

namespace GrammarArtifact

/-- Flags of a symbol. All eight bits are stored; three of them have a meaning. -/
structure SymbolFlags where
  bits : UInt8
  deriving DecidableEq

namespace SymbolFlags

def empty : SymbolFlags := ⟨0⟩

/-- The symbol appears in trees. -/
def visible : SymbolFlags := ⟨1⟩

/-- The symbol is a rule or a token with a name of its own. -/
def named : SymbolFlags := ⟨2⟩

/-- The symbol stands for several others. -/
def supertype : SymbolFlags := ⟨4⟩

instance : Union SymbolFlags := ⟨fun a b => ⟨a.bits ||| b.bits⟩⟩

def includes (a b : SymbolFlags) : Bool := a.bits &&& b.bits == b.bits

end SymbolFlags

structure Symbol where
  name : String
  flags : SymbolFlags
  deriving DecidableEq

/-- How a symbol takes part in a grammar. -/
inductive SymbolKind where
  | token
  | literal
  /-- A terminal that an external scanner produces. -/
  | external
  | rule
  /-- A non-terminal that trees leave out. -/
  | hidden
  /-- A hidden non-terminal that stands for several others. -/
  | supertype
  deriving DecidableEq

namespace SymbolKind

def all : List SymbolKind := [.token, .literal, .external, .rule, .hidden, .supertype]

def label : SymbolKind → String
  | token => "token"
  | literal => "literal"
  | external => "external"
  | rule => "rule"
  | hidden => "hidden"
  | supertype => "supertype"

def ofLabel? (s : String) : Option SymbolKind := all.find? (·.label == s)

instance : Inhabited SymbolKind := ⟨.rule⟩

def isTerminal : SymbolKind → Bool
  | token | literal | external => true
  | rule | hidden | supertype => false

def flags : SymbolKind → SymbolFlags
  | token | external | rule => .visible ∪ .named
  | literal => .visible
  | hidden => .empty
  | supertype => .named ∪ .supertype

theorem ofLabel?_label (k : SymbolKind) : ofLabel? k.label = some k := by
  cases k <;> decide

theorem label_of_ofLabel? {s : String} {k : SymbolKind} (h : ofLabel? s = some k) :
    k.label = s := by
  simpa using List.find?_some h

end SymbolKind

end GrammarArtifact
