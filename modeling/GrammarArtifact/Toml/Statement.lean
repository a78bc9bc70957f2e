import GrammarArtifact.Toml.Moment
import GrammarArtifact.Toml.Node

/-! Statements of TOML: assignments of values to keys, and the headers of tables. -/

namespace GrammarArtifact

namespace Toml

/-- What a line of a document says, if it is not empty. -/
inductive Statement where
  | assign (a : Assignment)
  | table (path : List String) (key : String)
  /-- Opens the next table of an array. -/
  | element (path : List String) (key : String)

namespace Reader

/-! ## Keys -/

def isBareChar (c : Char) : Bool := c.isAlphanum || c = '_' || c = '-'

def simpleKey : Reader String := do
  match ← peek with
  | some '"' =>
    expect '"'
    basicLine
  | some '\'' =>
    expect '\''
    literalLine
  | _ =>
    let word ← takeWhile isBareChar
    guard (word ≠ [])
    return String.ofList word

/-- How deep brackets may be nested, and how many parts a dotted key may have. -/
def maxDepth : Nat := 80

/-- The keys of a dotted key: those on the way and the last one. -/
def dottedKey : Reader (List String × String) := do
  blanks
  let first ← simpleKey
  blanks
  loop (fun (path, key) => do
    if ← accept '.' then
      blanks
      let further ← simpleKey
      blanks
      return .inl (key :: path, further)
    else
      guard (path.length < maxDepth)
      return .inr (path.reverse, key)) ([], first)

/-! ## Values -/

/-- Characters of values that are neither quoted nor bracketed: whatever does not end a value. -/
def isWordChar (c : Char) : Bool :=
  c ∉ [' ', '\t', '\r', '\n', '#', '=', ',', '[', ']', '\x7b', '\x7d']

/-- Characters that can go on with a word after blanks. -/
def resumesWord (c : Char) : Bool := isWordChar c && c ∉ ['.', '"', '\'']

def valueOfWord (word : List Char) : Option Value :=
  if word = ['t', 'r', 'u', 'e'] then some (.boolean true)
  else if word = ['f', 'a', 'l', 's', 'e'] then some (.boolean false)
  else if Moment.isMoment word then some (.moment (String.ofList word))
  else Value.ofNumber? word

/-- The blanks that come next, if a word goes on after them. -/
def gapInWord : Reader (List Char) := fun cs =>
  let rest := cs.dropWhile isBlank
  if rest.head?.any resumesWord then some (cs.takeWhile isBlank, rest) else some ([], cs)

/-- A word with the blanks inside it, as between a date and a time. -/
def word : Reader (List Char) :=
  loop (fun found => do
    let run ← takeWhile isWordChar
    let gap ← gapInWord
    if gap = [] then return .inr (found ++ run)
    else return .inl (found ++ run ++ gap)) []

def scalar : Reader Value := do
  match ← peek with
  | some '"' =>
    let text ← basicText
    return .string text
  | some '\'' =>
    let text ← literalText
    return .string text
  | _ =>
    let found ← word
    fun cs => (valueOfWord found).map (·, cs)

/-- A key and the value assigned to it, with a gap on either side of the equals sign. -/
def assignment (gap : Reader Unit) (value : Reader Value) : Reader Assignment := do
  let (path, key) ← dottedKey
  gap
  expect '='
  gap
  let v ← value
  return { path, key, value := v }

/-- A value whose parts are at most `depth` brackets deep. Between braces, an assignment may go over
several lines. -/
def value : (depth : Nat) → Reader Value
  | 0 => scalar
  | depth + 1 => do
    match ← peek with
    | some '[' =>
      expect '['
      let found ← items ']' (value depth)
      return .array found
    | some '\x7b' =>
      expect '\x7b'
      let assignments ← items '\x7d' (assignment trivia (value depth))
      fun cs => (tableOfAssignments? assignments).map (.table ·, cs)
    | _ => scalar

/-! ## Lines -/

def statement : Reader Statement := do
  if ← acceptAll ['[', '['] then
    let (path, key) ← dottedKey
    let closed ← acceptAll [']', ']']
    guard closed
    return .element path key
  else if ← accept '[' then
    let (path, key) ← dottedKey
    expect ']'
    return .table path key
  else
    let a ← assignment blanks (value maxDepth)
    return .assign a

def statements : Reader (List Statement) :=
  loop (fun found => do
    trivia
    if (← peek).isNone then return .inr found.reverse
    else
      let s ← statement
      lineEnd
      return .inl (s :: found)) []

end Reader

end Toml

end GrammarArtifact
