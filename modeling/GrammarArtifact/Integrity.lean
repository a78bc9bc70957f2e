import GrammarArtifact.LoadError
import GrammarArtifact.StringTable

/-! Structural integrity of an artifact whose header is decoded: the sections lie in the payload one
after another, the counts bound each other, and every section has the shape that the counts imply.
String tables are counted by their terminators, all other tables by their length; what they hold is
not looked at. -/

namespace GrammarArtifact

def Extent.slice? (e : Extent) (payload : Bytes) : Option Bytes :=
  payload.slice? e.offset.toNat e.length.toNat

namespace Counts

def bounds : List (Count × Count) :=
  [(.tokens, .symbols), (.externals, .tokens), (.largeStates, .states)]

/-- The counts bound each other and the states can be numbered. -/
def check (c : Counts) : Except Defect Unit := do
  bounds.forM fun (count, bound) =>
    ensure (c.get count ≤ c.get bound)
      (.inconsistentCounts count (c.get count) bound (c.get bound))
  ensure (c.states ≤ Layout.maxStates) (.tooManyStates c.states)

end Counts

namespace Integrity

/-- Every section lies in the payload and starts no earlier than the one before it stops. -/
def checkLayout (payloadLength : Nat) :
    (previous : Option (Section × Nat)) → List (Section × Extent) → Except Defect Unit
  | _, [] => .ok ()
  | previous, (s, e) :: rest => do
    ensure (e.stop ≤ payloadLength) (.dangling s e payloadLength)
    previous.forM fun (before, stop) =>
      ensure (stop ≤ e.offset.toNat) (.overlapping before s)
    checkLayout payloadLength (some (s, e.stop)) rest

/-- A language name is a text that is not empty. -/
def checkName (data : Bytes) : Except Defect String :=
  match data.text? with
  | none => .error .badName
  | some name => do
    ensure (name ≠ "") .badName
    return name

def countStrings (s : Section) (data : Bytes) : Except Defect Nat :=
  match StringTable.count data with
  | none => .error (.unterminated s)
  | some n => .ok n

/-- The bytes of a table with an entry for each combination of counts, if sixty-four bits hold
every product on the way. -/
def tableLength? (counts : List UInt32) (entry : Nat) : Option Nat :=
  counts.foldlM (fun length count =>
    if length * count.toNat ≤ Layout.maxLong then some (length * count.toNat) else none) entry

/-- A table of fixed-width entries has the length that its counts imply. A length that sixty-four
bits do not hold is one that no section has. -/
def checkLength (s : Section) (data : Bytes) (implied : Option Nat) : Except Defect Unit :=
  let expected := implied.getD Layout.maxLong
  ensure (data.length = expected) (.sectionLength s expected data.length)

/-- A section has the shape that the counts imply. The name section gives the language name. -/
def checkContent (c : Counts) (s : Section) (data : Bytes) : Except Defect (Option String) :=
  match s with
  | .name => do
    let name ← checkName data
    return some name
  | .symbolNames => do
    let n ← countStrings s data
    ensure (n = c.symbols.toNat) (.symbolCount c.symbols n)
    return none
  | .symbolMetadata => do
    checkLength s data (tableLength? [c.symbols] Layout.metadataEntry)
    return none
  | .fieldNames => do
    let n ← countStrings s data
    ensure (n = c.fields.toNat) (.fieldCount c.fields n)
    return none
  | .parseTable => do
    checkLength s data (tableLength? [c.largeStates, c.symbols] Layout.parseTableEntry)
    return none
  | .lexModes => do
    checkLength s data (tableLength? [c.states] Layout.lexModeEntry)
    return none
  | .primaryStateIds => do
    checkLength s data (tableLength? [c.states] Layout.stateIdEntry)
    return none

/-- Checks sections in order and keeps the language name that one of them gives. -/
def checkContents (c : Counts) (payload : Bytes) :
    (name : Option String) → List (Section × Extent) → Except Defect (Option String)
  | name, [] => .ok name
  | name, (s, e) :: rest =>
    match e.slice? payload with
    | none => .error (.dangling s e payload.length)
    | some data => do
      let found ← checkContent c s data
      checkContents c payload (found.or name) rest

end Integrity

def Header.payload (h : Header) (bytes : Bytes) : Bytes := (bytes.drop? h.payloadOffset).getD []

def Header.contents? (h : Header) (bytes : Bytes) (s : Section) : Option Bytes := do
  let payload ← bytes.drop? h.payloadOffset
  let extent ← h.extent? s
  extent.slice? payload

/-- Checks a decoded header against its artifact and gives the language name. -/
def Header.check (h : Header) (bytes : Bytes) : Except Defect String := do
  let payload := h.payload bytes
  Integrity.checkLayout payload.length none h.sections
  h.counts.check
  let name ← Integrity.checkContents h.counts payload none h.sections
  name.elim (.error .badName) .ok

end GrammarArtifact
