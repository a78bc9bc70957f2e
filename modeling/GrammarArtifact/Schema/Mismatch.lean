import GrammarArtifact.Decimal.Shortest
import GrammarArtifact.Text.Quoted
import GrammarArtifact.Toml.Value
import GrammarArtifact.VersionRange

/-! Why a document does not describe what it should. A mismatch names the value, key or length at
fault; `message` puts it into words. -/

namespace GrammarArtifact

namespace Schema

inductive Expected where
  | word
  | text
  | sequence
  | record (name : String)
  deriving DecidableEq

def Expected.describe : Expected → String
  | word => "u32"
  | text => "a string"
  | sequence => "a sequence"
  | record name => s!"struct {name}"

/-- A value in the words of a message. -/
def describe : Toml.Value → String
  | .string s => "string " ++ Text.quoted s
  | .integer n => s!"integer `{n}`"
  | .float x => s!"floating point `{x.display}`"
  | .unreadable written => s!"number `{written}`"
  | .boolean b => s!"boolean `{b}`"
  | .moment _ => "map"
  | .array _ => "sequence"
  | .table _ => "map"

def typeName : Toml.Value → String
  | .string _ => "string"
  | .integer _ => "integer"
  | .float _ => "float"
  | .unreadable _ => "number"
  | .boolean _ => "boolean"
  | .moment _ => "datetime"
  | .array _ => "array"
  | .table _ => "table"

/-- Names in the order given, as the choice that a message offers. -/
def choice : List String → String
  | [a] => s!"`{a}`"
  | [a, b] => s!"`{a}` or `{b}`"
  | names => "one of " ++ ", ".intercalate (names.map fun name => s!"`{name}`")

/-- Why a document does not describe what it should. -/
inductive Mismatch where
  | wrongType (found : Toml.Value) (expected : Expected)
  | outOfRange (n : Int)
  | unknownKey (key : String) (known : List String)
  | repeatedKey (key : String)
  | missingKey (key : String)
  /-- An array that stands for a record and ends before a required field. -/
  | tooShort (length : Nat) (record : String) (size : Nat)
  | unknownVariant (name : String) (known : List String)
  | noVariant
  | severalVariants
  /-- A variant can be named by a string or a table only. -/
  | notVariant
  /-- A variant that holds nothing was given something. -/
  | variantPayload (found : Toml.Value)
  | invertedRange (e : InvertedRange)

namespace Mismatch

def message : Mismatch → String
  | wrongType found expected => s!"invalid type: {describe found}, expected {expected.describe}"
  | outOfRange n => s!"invalid value: integer `{n}`, expected u32"
  | unknownKey key known => s!"unknown field `{key}`, expected {choice known}"
  | repeatedKey key => s!"duplicate field `{key}`"
  | missingKey key => s!"missing field `{key}`"
  | tooShort length record size =>
    s!"invalid length {length}, expected struct {record} with {size} elements"
  | unknownVariant name known => s!"unknown variant `{name}`, expected {choice known}"
  | noVariant => "wanted exactly 1 element, found 0 elements"
  | severalVariants => "wanted exactly 1 element, more than 1 element"
  | notVariant => "wanted string or table"
  | variantPayload (.array _) => "expected empty array"
  | variantPayload (.table _) => "expected empty table"
  | variantPayload found => s!"expected table, found {typeName found}"
  | invertedRange e => e.message

end Mismatch

end Schema

end GrammarArtifact
