/-! Readers of characters. A reader takes what it needs from the front of a text and leaves the
rest, or fails. `Reader.loop` repeats a step as long as it consumes something, so every reader
comes to an end. -/

namespace GrammarArtifact

namespace Toml

/-- Reads an `α` from the front of a text. -/
abbrev Reader (α : Type) : Type := StateT (List Char) Option α

namespace Reader

variable {α σ : Type}

def fail : Reader α := fun _ => none

/-- The next character, which stays where it is. -/
def peek : Reader (Option Char) := fun cs => some (cs.head?, cs)

def next : Reader Char
  | [] => none
  | c :: rest => some (c, rest)

def accept (c : Char) : Reader Bool
  | [] => some (false, [])
  | d :: rest => if c = d then some (true, rest) else some (false, d :: rest)

def acceptAll (word : List Char) : Reader Bool := fun cs =>
  if word.isPrefixOf cs then some (true, cs.drop word.length) else some (false, cs)

def expect (c : Char) : Reader Unit := do
  let found ← accept c
  guard found

def takeWhile (p : Char → Bool) : Reader (List Char) := fun cs =>
  some (cs.takeWhile p, cs.dropWhile p)

/-- Repeats a step until it gives a result. A step that goes on has to consume something. -/
def loop (step : σ → Reader (σ ⊕ α)) (state : σ) : Reader α := fun cs =>
  match step state cs with
  | none => none
  | some (.inr result, rest) => some (result, rest)
  | some (.inl state, rest) => if rest.length < cs.length then loop step state rest else none
termination_by cs => cs.length

/-! ## Blanks, newlines and comments -/

def isBlank (c : Char) : Bool := c = ' ' || c = '\t'

def isForeign (c : Char) : Bool := 0x80 ≤ c.toNat

/-- A comment holds tabs and whatever is not a control character. -/
def isCommentChar (c : Char) : Bool := c = '\t' || ' ' ≤ c && c ≤ '~' || isForeign c

def blanks : Reader Unit := do
  let _ ← takeWhile isBlank

/-- Takes a newline if one comes next. A carriage return is part of one only before a line feed. -/
def newline : Reader Bool := do
  if ← accept '\n' then return true
  else acceptAll ['\r', '\n']

/-- Takes a comment, if one comes next, up to the end of its line. -/
def comment : Reader Unit := do
  if ← accept '#' then
    let _ ← takeWhile isCommentChar

def trivia : Reader Unit :=
  loop (fun _ => do
    blanks
    comment
    if ← newline then return .inl () else return .inr ()) ()

/-- Takes what may follow a statement on its line, with the newline. -/
def lineEnd : Reader Unit := do
  blanks
  comment
  if ← newline then return
  else
    let following ← peek
    guard following.isNone

/-- The items up to a closing character, with commas between them. A comma may follow the last
item, and newlines and comments may stand around each. -/
def items (close : Char) (item : Reader α) : Reader (List α) := do
  trivia
  loop (fun found => do
    if ← accept close then return .inr found.reverse
    else
      let x ← item
      trivia
      if ← accept ',' then
        trivia
        return .inl (x :: found)
      else
        expect close
        return .inr (x :: found).reverse) []

end Reader

end Toml

end GrammarArtifact
