import GrammarArtifact.Toml.Reader

/-! Quoted texts of TOML: basic ones with escapes, literal ones without, both on one line or on
several. -/

namespace GrammarArtifact

namespace Toml

namespace Reader

/-- What may stand in a basic text as itself. -/
def isBasicChar (c : Char) : Bool :=
  c ≠ '"' && c ≠ '\\' && (c = '\t' || ' ' ≤ c && c ≤ '~' || isForeign c)

def isLiteralChar (c : Char) : Bool :=
  c ≠ '\'' && (c = '\t' || ' ' ≤ c && c ≤ '~' || isForeign c)

def isHexDigit (c : Char) : Bool :=
  c.isDigit || 'a' ≤ c && c ≤ 'f' || 'A' ≤ c && c ≤ 'F'

def digitValue (c : Char) : Nat :=
  if c.isDigit then c.toNat - '0'.toNat else c.toLower.toNat - 'a'.toNat + 10

def ofDigits (base : Nat) (digits : List Char) : Nat :=
  digits.foldl (fun n c => n * base + digitValue c) 0

/-- The character whose code point stands in the next `width` hexadecimal digits. -/
def codePoint (width : Nat) : Reader Char := fun cs => do
  let digits := cs.take width
  guard (digits.length = width ∧ digits.all isHexDigit)
  let n := ofDigits 16 digits
  guard n.isValidChar
  return (Char.ofNat n, cs.drop width)

/-- The character that an escape stands for, after its backslash. -/
def escape : Reader Char := do
  match ← next with
  | 'b' => return '\x08'
  | 't' => return '\t'
  | 'n' => return '\n'
  | 'f' => return '\x0c'
  | 'r' => return '\r'
  | 'e' => return '\x1b'
  | '"' => return '"'
  | '\\' => return '\\'
  | 'x' => codePoint 2
  | 'u' => codePoint 4
  | 'U' => codePoint 8
  | _ => fail

def basicLine : Reader String :=
  loop (fun text => do
    let run ← takeWhile isBasicChar
    let text := text ++ String.ofList run
    match ← next with
    | '"' => return .inr text
    | '\\' =>
      let c ← escape
      return .inl (text.push c)
    | _ => fail) ""

def literalLine : Reader String := do
  let run ← takeWhile isLiteralChar
  expect '\''
  return String.ofList run

/-- What a run of quotes in a text on several lines stands for: three of them end the text, and one
or two more in front of them belong to it. -/
def closeQuotes (quote : Char) (text : String) (count : Nat) : Reader (String ⊕ String) :=
  if count < 3 then return .inl (text ++ String.ofList (List.replicate count quote))
  else if count ≤ 5 then
    return .inr (text ++ String.ofList (List.replicate (count - 3) quote))
  else fail

/-- A newline in a text stays as it is written. -/
def newlineText : Reader String := do
  if ← accept '\n' then return "\n"
  else
    let found ← acceptAll ['\r', '\n']
    guard found
    return "\r\n"

/-- Skips blanks and newlines. -/
def emptyLines : Reader Unit :=
  loop (fun _ => do
    blanks
    if ← newline then return .inl () else return .inr ()) ()

/-- After a backslash: whether it ends its line. If so, all blanks and newlines that follow are
skipped with it. -/
def lineContinuation : Reader Bool := fun cs =>
  match (do blanks; newline : Reader Bool) cs with
  | some (true, rest) => (do emptyLines; return true : Reader Bool) rest
  | _ => some (false, cs)

def basicLines : Reader String := do
  let _ ← newline
  loop (fun text => do
    let run ← takeWhile isBasicChar
    let text := text ++ String.ofList run
    match ← peek with
    | some '"' =>
      let quotes ← takeWhile (· = '"')
      closeQuotes '"' text quotes.length
    | some '\\' =>
      expect '\\'
      if ← lineContinuation then return .inl text
      else
        let c ← escape
        return .inl (text.push c)
    | _ =>
      let line ← newlineText
      return .inl (text ++ line)) ""

def literalLines : Reader String := do
  let _ ← newline
  loop (fun text => do
    let run ← takeWhile isLiteralChar
    let text := text ++ String.ofList run
    match ← peek with
    | some '\'' =>
      let quotes ← takeWhile (· = '\'')
      closeQuotes '\'' text quotes.length
    | _ =>
      let line ← newlineText
      return .inl (text ++ line)) ""

def basicText : Reader String := do
  if ← acceptAll ['"', '"', '"'] then basicLines
  else
    expect '"'
    basicLine

def literalText : Reader String := do
  if ← acceptAll ['\'', '\'', '\''] then literalLines
  else
    expect '\''
    literalLine

end Reader

end Toml

end GrammarArtifact
