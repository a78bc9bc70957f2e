import GrammarArtifact.Toml.Value

/-! Tables under construction. A document may come back to a table under several headers and dotted
keys; a `Node` remembers how a table came about, which decides what may still be added to it. -/

namespace GrammarArtifact

namespace Toml

inductive Origin where
  /-- As the parent of a table with a header. -/
  | implied
  /-- By a header of its own. -/
  | declared
  /-- By a dotted key, which may have found it implied. -/
  | dotted
  deriving DecidableEq

/-- A value, or a table that is still open. -/
inductive Node where
  | value (v : Value)
  | table (origin : Origin) (entries : List (String × Node))
  /-- An array of tables, of which the last one is open. -/
  | elements (closed : List Value) (last : List (String × Node))

/-- The entries of an open table, with keys in ascending order. -/
abbrev Entries : Type := List (String × Node)

structure Assignment where
  path : List String
  key : String
  value : Value

mutual

def Node.close : Node → Value
  | .value v => v
  | .table _ entries => .table (closeAll entries)
  | .elements closed last => .array (closed ++ [.table (closeAll last)])

def closeAll : List (String × Node) → List (String × Value)
  | [] => []
  | (key, node) :: rest => (key, node.close) :: closeAll rest

end

namespace Entries

/-- Puts at `key` what `change` makes of the node that is there. -/
def alter (key : String) (change : Option Node → Option Node) : Entries → Option Entries
  | [] => do
    let node ← change none
    return [(key, node)]
  | (k, node) :: rest =>
    if key < k then do
      let fresh ← change none
      return (key, fresh) :: (k, node) :: rest
    else if key = k then do
      let changed ← change (some node)
      return (k, changed) :: rest
    else do
      let later ← alter key change rest
      return (k, node) :: later

/-- Adds a value under a key that is still free. A dotted key opens the tables on its way and takes
over those that were implied, so that none of them can have a header later. It may pass through the
last table of an array, but cannot add to it. -/
def assignAt (key : String) (value : Value) : (path : List String) → Entries → Option Entries
  | [] => alter key fun
    | none => some (.value value)
    | some _ => none
  | k :: path => alter k fun
    | none => do
      let inner ← assignAt key value path []
      return .table .dotted inner
    | some (.table .dotted entries) | some (.table .implied entries) => do
      let inner ← assignAt key value path entries
      return .table .dotted inner
    | some (.elements closed last) => do
      guard (path ≠ [])
      let inner ← assignAt key value path last
      return .elements closed inner
    | some (.table .declared _) | some (.value _) => none

def assign (entries : Entries) (a : Assignment) : Option Entries :=
  assignAt a.key a.value a.path entries

def assignAll (entries : Entries) (assignments : List Assignment) : Option Entries :=
  assignments.foldlM assign entries

/-- Follows a header's path, opening the tables that are missing, and changes the entries at its
end. In an array of tables the path goes on in the last table. -/
def descend (change : Entries → Option Entries) : (path : List String) → Entries → Option Entries
  | [] => change
  | k :: path => alter k fun
    | none => do
      let inner ← descend change path []
      return .table .implied inner
    | some (.table origin entries) => do
      let inner ← descend change path entries
      return .table origin inner
    | some (.elements closed last) => do
      let inner ← descend change path last
      return .elements closed inner
    | some (.value _) => none

/-- Gives a table its header. Only a table that is absent or implied can have one. -/
def declare (path : List String) (key : String) (assignments : List Assignment) :
    Entries → Option Entries :=
  let change : Option Node → Option Node
    | none => do
      let inner ← assignAll [] assignments
      return .table .declared inner
    | some (.table .implied entries) => do
      let inner ← assignAll entries assignments
      return .table .declared inner
    | some _ => none
  descend (alter key change) path

/-- Adds a table to an array of tables. -/
def addElement (path : List String) (key : String) (assignments : List Assignment) :
    Entries → Option Entries :=
  let change : Option Node → Option Node
    | none => do
      let inner ← assignAll [] assignments
      return .elements [] inner
    | some (.elements closed last) => do
      let inner ← assignAll [] assignments
      return .elements (closed ++ [.table (closeAll last)]) inner
    | some _ => none
  descend (alter key change) path

end Entries

def tableOfAssignments? (assignments : List Assignment) : Option Document := do
  let entries ← Entries.assignAll [] assignments
  return closeAll entries

end Toml

end GrammarArtifact
