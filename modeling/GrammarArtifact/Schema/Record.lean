import GrammarArtifact.Ensure
import GrammarArtifact.Layout
import GrammarArtifact.Schema.Mismatch
import GrammarArtifact.Toml.Moment

/-! Reading records out of documents. The entries of a table are visited in the order they have
there, and the first one that is unknown or holds the wrong thing decides the error; fields that
are missing come after that. A record inside a document may also be an array that lists its fields
by position. -/

namespace GrammarArtifact

namespace Schema

open Toml (Value)

abbrev Reading (α : Type) : Type := Value → Except Mismatch α

def word : Reading UInt32
  | .integer n =>
    if 0 ≤ n ∧ n ≤ Layout.maxWord then .ok (UInt32.ofNat n.toNat) else .error (.outOfRange n)
  | v => .error (.wrongType v .word)

def text : Reading String
  | .string s => .ok s
  | v => .error (.wrongType v .text)

/-- An array of items that are all read alike. -/
def sequence {α : Type} (item : Reading α) : Reading (List α)
  | .array items => items.mapM item
  | v => .error (.wrongType v .sequence)

/-- A field of a record: its key and whether a value fits it. -/
structure Field where
  key : String
  check : Reading Unit

def Field.of {α : Type} (key : String) (read : Reading α) : Field where
  key := key
  check v := (read v).map fun _ => ()

/-- A record: its name in messages and its fields in the order of declaration. -/
structure Record where
  name : String
  fields : List Field

namespace Record

def keys (r : Record) : List String := r.fields.map Field.key

/-- Visits the entries of a table; `seen` holds the keys visited so far. -/
def checkEntries (r : Record) : (seen : List String) → List (String × Value) → Except Mismatch Unit
  | _, [] => .ok ()
  | seen, (key, v) :: rest =>
    match r.fields.find? (·.key == key) with
    | none => .error (.unknownKey key r.keys)
    | some field => do
      ensure (key ∉ seen) (.repeatedKey key)
      field.check v
      r.checkEntries (key :: seen) rest

end Record

inductive Source where
  | keyed (entries : List (String × Value))
  | listed (items : List Value)

namespace Record

/-- The fields of a table, every one of them visited. -/
def ofEntries (r : Record) (entries : List (String × Value)) : Except Mismatch Source := do
  r.checkEntries [] entries
  return .keyed entries

/-- The fields of a value. A moment counts as a table. -/
def ofValue (r : Record) : Reading Source
  | .table entries => r.ofEntries entries
  | .array items => .ok (.listed items)
  | .moment written => r.ofEntries [(Toml.Moment.key, .string written)]
  | v => .error (.wrongType v (.record r.name))

def value? (r : Record) (key : String) : Source → Option Value
  | .keyed entries => entries.lookup key
  | .listed items => items[r.keys.idxOf key]?

def missing (r : Record) (key : String) : Source → Mismatch
  | .keyed _ => .missingKey key
  | .listed _ => .tooShort (r.keys.idxOf key) r.name r.keys.length

def required {α : Type} (r : Record) (source : Source) (key : String) (read : Reading α) :
    Except Mismatch α :=
  match r.value? key source with
  | none => .error (r.missing key source)
  | some v => read v

def optional {α : Type} (r : Record) (source : Source) (key : String) (read : Reading α)
    (default : α) : Except Mismatch α :=
  match r.value? key source with
  | none => .ok default
  | some v => read v

end Record

end Schema

end GrammarArtifact
