import GrammarArtifact.Decimal.Binary64

/-! Values of TOML documents. -/

namespace GrammarArtifact

namespace Toml

inductive Value where
  | string (s : String)
  | integer (n : Int)
  | float (x : Binary64)
  /-- A word that is set out like a number and denotes none: there is no such number, or it is out
  of range. -/
  | unreadable (written : String)
  | boolean (b : Bool)
  /-- A date, a time or both, as written. -/
  | moment (written : String)
  | array (items : List Value)
  | table (entries : List (String × Value))

/-- A document is a table. The keys of a table that was read from a text are distinct and in
ascending order. -/
abbrev Document : Type := List (String × Value)

end Toml

end GrammarArtifact
