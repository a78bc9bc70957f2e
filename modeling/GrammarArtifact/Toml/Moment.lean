import GrammarArtifact.Toml.Number

/-! Dates and times of TOML. Only their validity is decided here: a moment is kept as written. -/

namespace GrammarArtifact

namespace Toml

namespace Moment

/-- The number in a run of exactly `width` digits at the front of a text. -/
def field? (width : Nat) (cs : List Char) : Option (Nat × List Char) := do
  let digits := cs.take width
  guard (digits.length = width ∧ digits.all Char.isDigit)
  return (Reader.ofDigits 10 digits, cs.drop width)

def isLeapYear (year : Nat) : Bool := year % 4 = 0 && (year % 100 ≠ 0 || year % 400 = 0)

def daysOfMonth (year month : Nat) : Nat :=
  if month = 2 then (if isLeapYear year then 29 else 28)
  else if month = 4 ∨ month = 6 ∨ month = 9 ∨ month = 11 then 30
  else 31

def date? (cs : List Char) : Option (List Char) := do
  let (year, cs) ← field? 4 cs
  guard (cs.head? = some '-')
  let (month, cs) ← field? 2 (cs.drop 1)
  guard (cs.head? = some '-')
  let (day, cs) ← field? 2 (cs.drop 1)
  guard (1 ≤ month ∧ month ≤ 12 ∧ 1 ≤ day ∧ day ≤ daysOfMonth year month)
  return cs

def clock? (cs : List Char) : Option (List Char) := do
  let (hour, cs) ← field? 2 cs
  guard (cs.head? = some ':')
  let (minute, cs) ← field? 2 (cs.drop 1)
  guard (hour ≤ 23 ∧ minute ≤ 59)
  return cs

/-- The seconds at the front of a text, with the colon before them and a fraction; they may be
left out. A leap second is a second. -/
def seconds? : List Char → Option (List Char)
  | ':' :: cs => do
    let (second, cs) ← field? 2 cs
    guard (second ≤ 60)
    match cs with
    | '.' :: fraction =>
      guard (fraction.head?.any Char.isDigit)
      return fraction.dropWhile Char.isDigit
    | _ => return cs
  | cs => some cs

def time? (cs : List Char) : Option (List Char) := do
  let rest ← clock? cs
  seconds? rest

/-- Whether a text is an offset from universal time, or nothing. -/
def isOffset : List Char → Bool
  | [] | ['Z'] | ['z'] => true
  | '+' :: cs | '-' :: cs => clock? cs == some []
  | _ => false

/-- Whether a word is a date, a time or both; only both together may have an offset. -/
def isMoment (word : List Char) : Bool :=
  match date? word with
  | some [] => true
  | some (c :: rest) =>
    (c = 'T' || c = 't' || c = ' ') && (time? rest).any isOffset
  | none => time? word == some []

/-- The key under which a moment shows where a table is expected. A table that has it in front
stands for a moment. -/
def key : String := "$__toml_private_datetime"

end Moment

end Toml

end GrammarArtifact
