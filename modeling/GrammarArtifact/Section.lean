/-! The sections of an artifact's payload. Their order here is the order of the directory; version
`Section.stateIdsSince` is the first that carries all seven. -/

namespace GrammarArtifact

/-- A length-delimited part of the payload. -/
inductive Section where
  /-- The language name, in UTF-8. -/
  | name
  /-- One NUL-terminated name per symbol. -/
  | symbolNames
  /-- One flag byte per symbol. -/
  | symbolMetadata
  /-- One NUL-terminated name per field. -/
  | fieldNames
  /-- The parse actions of the large states, two bytes per state and symbol. -/
  | parseTable
  /-- The lexer modes, four bytes per state. -/
  | lexModes
  /-- The canonical state ids, two bytes per state. -/
  | primaryStateIds
  deriving DecidableEq

namespace Section

def all : List Section :=
  [.name, .symbolNames, .symbolMetadata, .fieldNames, .parseTable, .lexModes, .primaryStateIds]

def index : Section → Nat
  | name => 0
  | symbolNames => 1
  | symbolMetadata => 2
  | fieldNames => 3
  | parseTable => 4
  | lexModes => 5
  | primaryStateIds => 6

def label : Section → String
  | name => "name"
  | symbolNames => "symbol_names"
  | symbolMetadata => "symbol_metadata"
  | fieldNames => "field_names"
  | parseTable => "parse_table"
  | lexModes => "lex_modes"
  | primaryStateIds => "primary_state_ids"

instance : ToString Section := ⟨label⟩

/-- Sections compare by their place in the directory. -/
instance : Ord Section := ⟨fun a b => compare a.index b.index⟩

/-- First version whose artifacts carry the canonical state ids. -/
def stateIdsSince : UInt32 := 14

/-- The sections of an artifact of a given version, in directory order. -/
def ofVersion (version : UInt32) : List Section :=
  if version < stateIdsSince then all.dropLast else all

def ofLabel? (s : String) : Option Section := all.find? (·.label == s)

theorem index_injective {s t : Section} (h : s.index = t.index) : s = t := by
  have hs : ∀ u : Section, all[u.index]? = some u := by intro u; cases u <;> rfl
  exact Option.some.inj ((hs s).symm.trans (h ▸ hs t))

theorem length_ofVersion (version : UInt32) :
    (ofVersion version).length = if version < stateIdsSince then 6 else 7 := by
  unfold ofVersion; split <;> rfl

theorem mem_ofVersion {version : UInt32} {s : Section} :
    s ∈ ofVersion version ↔ (s = .primaryStateIds → stateIdsSince ≤ version) := by
  unfold ofVersion
  split
  · have : ¬stateIdsSince ≤ version := by simpa using ‹version < stateIdsSince›
    cases s <;> simp [all, this]
  · have : stateIdsSince ≤ version := by simpa using ‹¬version < stateIdsSince›
    cases s <;> simp [all, this]

end Section

end GrammarArtifact
