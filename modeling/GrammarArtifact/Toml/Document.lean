import GrammarArtifact.Toml.Statement

/-! Documents of TOML. A text is a document when its lines are statements and no statement
contradicts an earlier one. -/

namespace GrammarArtifact

namespace Toml

/-- A table's header with the assignments below it. -/
inductive Part where
  | table (path : List String) (key : String) (assignments : List Assignment)
  | element (path : List String) (key : String) (assignments : List Assignment)

/-- The assignments above the first header, and the parts that headers open. -/
def parts : List Statement → List Assignment × List Part
  | [] => ([], [])
  | .assign a :: rest =>
    let (assignments, later) := parts rest
    (a :: assignments, later)
  | .table path key :: rest =>
    let (assignments, later) := parts rest
    ([], .table path key assignments :: later)
  | .element path key :: rest =>
    let (assignments, later) := parts rest
    ([], .element path key assignments :: later)

def Entries.addPart (entries : Entries) : Part → Option Entries
  | .table path key assignments => declare path key assignments entries
  | .element path key assignments => addElement path key assignments entries

namespace Document

def ofStatements? (statements : List Statement) : Option Document := do
  let (assignments, later) := parts statements
  let root ← Entries.assignAll [] assignments
  let entries ← later.foldlM Entries.addPart root
  return closeAll entries

/-- A byte order mark may come first; it is no part of the text. -/
def dropMark : List Char → List Char
  | '\ufeff' :: rest => rest
  | cs => cs

def ofText? (text : String) : Option Document := do
  let (statements, _) ← Reader.statements (dropMark text.toList)
  ofStatements? statements

end Document

end Toml

end GrammarArtifact
