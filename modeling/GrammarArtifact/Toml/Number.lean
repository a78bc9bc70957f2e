import GrammarArtifact.Toml.QuotedText
import GrammarArtifact.Toml.Value

/-! Numbers of TOML. An integer has sixty-four bits; a float has to be in the range of double
precision, infinities and NaN being written as words. A word can be set out like a number and still
denote none; it is then a value that cannot be read. -/

namespace GrammarArtifact

namespace Toml

namespace Number

/-- Whether each underscore has a digit on either side. The flag says whether the character before
is one. -/
def separates (isDigit : Char → Bool) : (afterDigit : Bool) → List Char → Bool
  | _, [] => true
  | afterDigit, '_' :: rest =>
    afterDigit && rest.head?.any isDigit && separates isDigit false rest
  | _, c :: rest => separates isDigit (isDigit c) rest

def isGrouped (isDigit : Char → Bool) (word : List Char) : Bool := separates isDigit false word

def ungroup (cs : List Char) : List Char := cs.filter (· ≠ '_')

/-- Splits off a sign; the flag is set for a minus. -/
def sign : List Char → Bool × List Char
  | '+' :: rest => (false, rest)
  | '-' :: rest => (true, rest)
  | cs => (false, cs)

def signed (negative : Bool) (n : Nat) : Int := if negative then -n else n

/-! ## Integers -/

def smallest : Int := -9223372036854775808

def largest : Int := 9223372036854775807

def integer (word : List Char) (n : Int) : Value :=
  if smallest ≤ n ∧ n ≤ largest then .integer n else .unreadable (String.ofList word)

/-- A whole number in a base that a mark announces. The digits after the mark are separate from
it; where there are none, there is no number. -/
def marked? (base : Nat) (isDigit : Char → Bool) (word : List Char) : Option Value := do
  let rest := word.drop 2
  let digits := ungroup rest
  guard (digits.all isDigit ∧ isGrouped isDigit rest)
  return if digits = [] then .unreadable (String.ofList word)
    else integer word (Reader.ofDigits base digits)

/-- A decimal number. Past the first underscore anything but a space may stand, if only the
characters next to underscores could be digits of some base; but only digits make a number. No zero
leads, except the number zero. -/
def decimal? (word : List Char) : Option Value := do
  let (negative, cs) := sign word
  let later := cs.dropWhile Char.isDigit
  guard (cs ≠ [] ∧ (cs.head? ≠ some '0' ∨ cs = ['0']))
  guard (later = [] ∨ later.head? = some '_')
  guard (' ' ∉ word ∧ isGrouped Reader.isHexDigit word)
  let digits := ungroup cs
  return if digits.all Char.isDigit then integer word (signed negative (Reader.ofDigits 10 digits))
    else .unreadable (String.ofList word)

/-! ## Floats -/

def isExponentMark (c : Char) : Bool := c = 'e' || c = 'E'

/-- The digits of a run that holds at least one and, besides, only underscores. -/
def digits? (cs : List Char) : Option (List Char) := do
  let digits := ungroup cs
  guard (digits ≠ [] ∧ digits.all Char.isDigit)
  return digits

def exponent? (cs : List Char) : Option Int := do
  let (negative, rest) := sign cs
  let digits ← digits? rest
  return signed negative (Reader.ofDigits 10 digits)

/-- A decimal number with a fraction, an exponent or both. No zero leads, except one that is the
whole part. -/
def decimalFloat? (word : List Char) : Option Value := do
  guard (isGrouped Char.isDigit word)
  let (negative, cs) := sign word
  let mantissa := cs.takeWhile (!isExponentMark ·)
  let scaling := cs.drop mantissa.length
  let whole := mantissa.takeWhile (· ≠ '.')
  let pointed := mantissa.drop whole.length
  let wholeDigits ← digits? whole
  guard (whole.head? ≠ some '0' ∨ wholeDigits.length = 1)
  let fraction ← if pointed = [] then some [] else digits? (pointed.drop 1)
  let exponent ← if scaling = [] then some 0 else exponent? (scaling.drop 1)
  let coefficient := Reader.ofDigits 10 (wholeDigits ++ fraction)
  let x := Binary64.ofDecimal negative coefficient (exponent - fraction.length)
  return if x = .infinite negative then .unreadable (String.ofList word) else .float x

end Number

def Value.ofNumber? (word : List Char) : Option Value :=
  match word with
  | '0' :: 'x' :: _ => Number.marked? 16 Reader.isHexDigit word
  | '0' :: 'o' :: _ => Number.marked? 8 (fun c => '0' ≤ c && c ≤ '7') word
  | '0' :: 'b' :: _ => Number.marked? 2 (fun c => c = '0' || c = '1') word
  | _ =>
    match Number.sign word with
    | (negative, ['i', 'n', 'f']) => some (.float (.infinite negative))
    | (_, ['n', 'a', 'n']) => some (.float .nan)
    | (_, cs) =>
      if cs.any fun c => c = '.' || Number.isExponentMark c then Number.decimalFloat? word
      else Number.decimal? word

end Toml

end GrammarArtifact
