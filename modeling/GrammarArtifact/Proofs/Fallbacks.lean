import GrammarArtifact.Proofs.Access
import GrammarArtifact.Proofs.LayoutOrder

/-! What a load never comes to. In several places a load has an answer ready although an earlier
check has left nothing to answer: a word of the header that is not there, a payload that is cut off,
a section outside of it, a product too long for sixty-four bits, no name. `Fallbacks.load` is a load
whose answers there can be chosen. With the ones that a load has ready it is that load, function by
function (`Fallbacks.load_own`). It is the same load whatever these answers are
(`Fallbacks.load_eq`), so none of them is ever given. -/

namespace GrammarArtifact

/-- Answers for the places of a load that an earlier check keeps it away from. An answer that is
given shows in the outcome, since each of them may be any error. -/
structure Fallbacks where
  /-- A word of the header is not there. -/
  word : (offset length : Nat) → Except HeaderError UInt32
  /-- The artifact ends before its payload. -/
  payload : Except Defect Bytes
  /-- A section is not in the payload when its contents are looked at. -/
  contents : Section → Extent → (payloadLength : Nat) → Except Defect Bytes
  /-- Sixty-four bits do not hold the length of a table. -/
  length : Except Defect Nat
  /-- All contents are in order and none of them gave the name. -/
  name : Except Defect String

namespace Fallbacks

open Integrity

/-! ## Loads with other answers -/

section

variable (f : Fallbacks)

def readWord (bytes : Bytes) (offset : Nat) : Except HeaderError UInt32 :=
  match LittleEndian.word32? bytes offset with
  | some n => .ok n
  | none => f.word offset bytes.length

def decodeVersion (bytes : Bytes) : Except HeaderError UInt32 := do
  ensure (Layout.tagLength ≤ bytes.length) (.truncated Layout.tagLength bytes.length)
  ensure (bytes.take Layout.magic.length = Layout.magic) .badMagic
  f.readWord bytes Layout.version

def decodeCounts (bytes : Bytes) : Except HeaderError Counts := do
  let symbols ← f.readWord bytes Layout.symbolCount
  let tokens ← f.readWord bytes Layout.tokenCount
  let externals ← f.readWord bytes Layout.externalCount
  let states ← f.readWord bytes Layout.stateCount
  let largeStates ← f.readWord bytes Layout.largeStateCount
  let fields ← f.readWord bytes Layout.fieldCount
  return { symbols, tokens, externals, states, largeStates, fields }

def decodeExtent (bytes : Bytes) (s : Section) : Except HeaderError Extent := do
  let offset ← f.readWord bytes (Layout.entryOffset s)
  let length ← f.readWord bytes (Layout.entryOffset s + 4)
  return { offset, length }

def decodeDirectory (bytes : Bytes) :
    (sections : List Section) → Except HeaderError (Directory sections)
  | [] => .ok .nil
  | s :: rest => do
    let extent ← f.decodeExtent bytes s
    let later ← decodeDirectory bytes rest
    return later.cons extent

def decode (bytes : Bytes) : Except HeaderError Header := do
  let version ← f.decodeVersion bytes
  ensure (Layout.fixedLength ≤ bytes.length) (.truncated Layout.fixedLength bytes.length)
  let expected := Section.ofVersion version
  let declared ← f.readWord bytes Layout.sectionCount
  ensure (declared.toNat = expected.length) (.sectionCount version expected.length declared)
  let needed := Layout.headerLength expected.length
  ensure (needed ≤ bytes.length) (.truncated needed bytes.length)
  let directory ← f.decodeDirectory bytes expected
  let counts ← f.decodeCounts bytes
  return { version, counts, directory }

def checkLength (s : Section) (data : Bytes) (implied : Option Nat) : Except Defect Unit := do
  let expected ← implied.elim f.length .ok
  ensure (data.length = expected) (.sectionLength s expected data.length)

def checkContent (c : Counts) (s : Section) (data : Bytes) : Except Defect (Option String) :=
  match s with
  | .name => do
    let name ← checkName data
    return some name
  | .symbolNames => do
    let n ← countStrings s data
    ensure (n = c.symbols.toNat) (.symbolCount c.symbols n)
    return none
  | .symbolMetadata => do
    f.checkLength s data (tableLength? [c.symbols] Layout.metadataEntry)
    return none
  | .fieldNames => do
    let n ← countStrings s data
    ensure (n = c.fields.toNat) (.fieldCount c.fields n)
    return none
  | .parseTable => do
    f.checkLength s data (tableLength? [c.largeStates, c.symbols] Layout.parseTableEntry)
    return none
  | .lexModes => do
    f.checkLength s data (tableLength? [c.states] Layout.lexModeEntry)
    return none
  | .primaryStateIds => do
    f.checkLength s data (tableLength? [c.states] Layout.stateIdEntry)
    return none

def checkContents (c : Counts) (payload : Bytes) :
    (name : Option String) → List (Section × Extent) → Except Defect (Option String)
  | name, [] => .ok name
  | name, (s, e) :: rest => do
    let data ← (e.slice? payload).elim (f.contents s e payload.length) .ok
    let found ← f.checkContent c s data
    checkContents c payload (found.or name) rest

def check (h : Header) (bytes : Bytes) : Except Defect String := do
  let payload ← (bytes.drop? h.payloadOffset).elim f.payload .ok
  checkLayout payload.length none h.sections
  h.counts.check
  let name ← f.checkContents h.counts payload none h.sections
  name.elim f.name .ok

/-- A load that gives these answers wherever it comes to need one. -/
def load (loader : Loader) : (artifact : Option Region) → Except LoadError Language
  | none => .error .missing
  | some artifact => do
    let bytes := artifact.bytes
    ensure (bytes ≠ []) .missing
    let version ← (f.decodeVersion bytes).mapError LoadError.ofHeader
    ensure (version ∈ loader.versions) (.incompatible version loader.versions)
    let header ← (f.decode bytes).mapError LoadError.ofHeader
    let name ← (f.check header bytes).mapError LoadError.defective
    return { artifact, header, name }

end

/-! ## The answers of a load itself -/

/-- The answers that a load has ready. -/
def own : Fallbacks where
  word offset length := .error (.truncated (offset + 4) length)
  payload := .ok []
  contents s e payloadLength := .error (.dangling s e payloadLength)
  length := .ok Layout.maxLong
  name := .error .badName

theorem decodeDirectory_own (bytes : Bytes) (sections : List Section) :
    own.decodeDirectory bytes sections = Header.decodeDirectory bytes sections := by
  induction sections with
  | nil => rfl
  | cons s rest ih =>
    rw [decodeDirectory, Header.decodeDirectory, ih]
    rfl

theorem decode_own (bytes : Bytes) : own.decode bytes = Header.decode bytes := by
  simp only [decode, Header.decode, decodeDirectory_own]
  rfl

theorem checkLength_own (s : Section) (data : Bytes) (implied : Option Nat) :
    own.checkLength s data implied = Integrity.checkLength s data implied := by
  cases implied with
  | none => rfl
  | some n => rfl

theorem checkContent_own (c : Counts) (s : Section) (data : Bytes) :
    own.checkContent c s data = Integrity.checkContent c s data := by
  cases s with
  | name | symbolNames | fieldNames => rfl
  | symbolMetadata | parseTable | lexModes | primaryStateIds =>
    rw [checkContent, Integrity.checkContent, checkLength_own]

theorem checkContents_own (c : Counts) (payload : Bytes) (name : Option String)
    (sections : List (Section × Extent)) : own.checkContents c payload name sections =
      Integrity.checkContents c payload name sections := by
  induction sections generalizing name with
  | nil => rfl
  | cons p rest ih =>
    obtain ⟨s, e⟩ := p
    rw [checkContents, Integrity.checkContents]
    cases e.slice? payload with
    | none => rfl
    | some data =>
      show own.checkContent c s data >>= _ = _
      simp only [checkContent_own, ih]

theorem check_own (h : Header) (bytes : Bytes) : own.check h bytes = h.check bytes := by
  simp only [check, Header.check, Header.payload, checkContents_own]
  cases bytes.drop? h.payloadOffset with
  | none => rfl
  | some payload => rfl

/-- With the answers that it has ready, the load is that of the loader. No check is needed for this:
the functions that it is made of are the same on all arguments. -/
theorem load_own (loader : Loader) (artifact : Option Region) :
    own.load loader artifact = loader.load artifact := by
  cases artifact with
  | none => rfl
  | some artifact =>
    simp only [load, Loader.load, decode_own, check_own]
    rfl

variable {f : Fallbacks} {bytes data payload : Bytes} {s : Section} {c : Counts} {h : Header}
  {sections : List Section}

/-! ## The header -/

/-- A word that lies in the bytes is read from them. -/
theorem readWord_eq {offset : Nat} (h : offset + 4 ≤ bytes.length) :
    f.readWord bytes offset = Header.word bytes offset := by
  obtain ⟨n, hn⟩ := Option.isSome_iff_exists.1 (LittleEndian.isSome_word32?.2 h)
  rw [readWord, Header.word, hn]

/-- The tag ends with the version. -/
theorem decodeVersion_eq (bytes : Bytes) : f.decodeVersion bytes = Header.decodeVersion bytes :=
  bind_congr_ok fun _ hlength => bind_congr fun _ => readWord_eq (ensure_eq_ok.1 hlength)

theorem decodeCounts_eq (h : Layout.fixedLength ≤ bytes.length) :
    f.decodeCounts bytes = Header.decodeCounts bytes := by
  have hword : ∀ {offset : Nat}, offset + 4 ≤ Layout.fixedLength →
      f.readWord bytes offset = Header.word bytes offset :=
    fun hle => readWord_eq (Nat.le_trans hle h)
  rw [decodeCounts, Header.decodeCounts, hword (by decide), hword (by decide), hword (by decide),
    hword (by decide), hword (by decide), hword (by decide)]

theorem decodeExtent_eq (h : Layout.entryOffset s + Layout.entryLength ≤ bytes.length) :
    f.decodeExtent bytes s = Header.decodeExtent bytes s := by
  have hoffset : Layout.entryOffset s + 4 ≤ bytes.length :=
    Nat.le_trans (Nat.add_le_add_left (by decide) _) h
  rw [decodeExtent, Header.decodeExtent, readWord_eq hoffset, readWord_eq h]

theorem decodeDirectory_eq
    (h : ∀ s ∈ sections, Layout.entryOffset s + Layout.entryLength ≤ bytes.length) :
    f.decodeDirectory bytes sections = Header.decodeDirectory bytes sections := by
  induction sections with
  | nil => rfl
  | cons s rest ih =>
    obtain ⟨hs, hrest⟩ := List.forall_mem_cons.1 h
    rw [decodeDirectory, Header.decodeDirectory, decodeExtent_eq hs, ih hrest]

/-- The entries of a version's sections are part of the header. -/
theorem entry_le_headerLength {version : UInt32} (hs : s ∈ Section.ofVersion version) :
    Layout.entryOffset s + Layout.entryLength ≤
      Layout.headerLength (Section.ofVersion version).length := by
  have hindex := Section.mem_ofVersion_iff_index_lt.1 hs
  simp only [Layout.entryOffset, Layout.headerLength, Layout.fixedLength, Layout.entryLength]
  omega

theorem decode_eq (bytes : Bytes) : f.decode bytes = Header.decode bytes := by
  rw [decode, Header.decode, decodeVersion_eq]
  refine bind_congr fun version => bind_congr_ok fun _ hfixed => ?_
  have hfixed := ensure_eq_ok.1 hfixed
  rw [readWord_eq (show Layout.sectionCount + 4 ≤ bytes.length from hfixed)]
  refine bind_congr fun declared => bind_congr fun _ => bind_congr_ok fun _ hneeded => ?_
  have hneeded := ensure_eq_ok.1 hneeded
  rw [decodeDirectory_eq fun s hs => Nat.le_trans (entry_le_headerLength hs) hneeded,
    decodeCounts_eq hfixed]

/-! ## Lengths of tables -/

/-- The products that give the lengths of tables, each a list of counts with the bytes of an entry.
The table with two counts has a product on the way to its length. -/
def products (c : Counts) : List (List UInt32 × Nat) :=
  [([c.symbols], Layout.metadataEntry), ([c.largeStates], Layout.parseTableEntry),
    ([c.largeStates, c.symbols], Layout.parseTableEntry), ([c.states], Layout.lexModeEntry),
    ([c.states], Layout.stateIdEntry)]

theorem parseTable_lt {largeStates symbols : Nat} (hlarge : largeStates ≤ 65536)
    (hsymbols : symbols < 2 ^ 32) : 2 * largeStates * symbols < 2 ^ 49 :=
  calc 2 * largeStates * symbols ≤ 2 * 65536 * (2 ^ 32 - 1) :=
        Nat.mul_le_mul (Nat.mul_le_mul_left 2 hlarge) (Nat.le_of_lt_succ hsymbols)
    _ < 2 ^ 49 := by decide

/-- The limit on the states keeps all products far below sixty-four bits. -/
theorem exists_tableLength? (hc : c.Bounded) {p : List UInt32 × Nat} (hp : p ∈ products c) :
    ∃ n, tableLength? p.1 p.2 = some n ∧ n < 2 ^ 49 := by
  have hsymbols := c.symbols.toNat_lt
  have hstates : c.states.toNat ≤ 65536 := UInt32.le_iff_toNat_le.1 hc.states
  have hmax := UInt32.le_trans hc.largeStates hc.states
  have hlarge : c.largeStates.toNat ≤ 65536 := UInt32.le_iff_toNat_le.1 hmax
  simp only [products, List.mem_cons, List.not_mem_nil, or_false, Layout.metadataEntry,
    Layout.parseTableEntry, Layout.lexModeEntry, Layout.stateIdEntry] at hp
  rcases hp with rfl | rfl | rfl | rfl | rfl
  · exact ⟨_, tableLength?_singleton (show 1 ≤ 4 by decide), by omega⟩
  · exact ⟨_, tableLength?_singleton (show 2 ≤ 4 by decide), by omega⟩
  · exact ⟨_, tableLength?_states hmax (show 2 ≤ 4 by decide), parseTable_lt hlarge hsymbols⟩
  · exact ⟨_, tableLength?_singleton (Nat.le_refl 4), by omega⟩
  · exact ⟨_, tableLength?_singleton (show 2 ≤ 4 by decide), by omega⟩

/-! ## The structure -/

theorem checkLength_eq {counts : List UInt32} {entry : Nat} (hc : c.Bounded)
    (h : (counts, entry) ∈ products c) : f.checkLength s data (tableLength? counts entry) =
      Integrity.checkLength s data (tableLength? counts entry) := by
  obtain ⟨n, hn, -⟩ := exists_tableLength? hc h
  rw [show tableLength? counts entry = some n from hn]
  rfl

theorem checkContent_eq (hc : c.Bounded) :
    f.checkContent c s data = Integrity.checkContent c s data := by
  cases s with
  | name | symbolNames | fieldNames => rfl
  | symbolMetadata | parseTable | lexModes | primaryStateIds =>
    rw [checkContent, Integrity.checkContent, checkLength_eq hc (by simp [products])]

theorem checkContents_eq (hc : c.Bounded) {name : Option String}
    {sections : List (Section × Extent)} (h : ∀ p ∈ sections, p.2.stop ≤ payload.length) :
    f.checkContents c payload name sections =
      Integrity.checkContents c payload name sections := by
  induction sections generalizing name with
  | nil => rfl
  | cons p rest ih =>
    obtain ⟨s, e⟩ := p
    obtain ⟨hs, hrest⟩ := List.forall_mem_cons.1 h
    obtain ⟨data, hdata⟩ := Option.isSome_iff_exists.1 (Bytes.isSome_slice?.2 hs)
    have hslice : e.slice? payload = some data := hdata
    rw [checkContents, Integrity.checkContents, hslice]
    show f.checkContent c s data >>= _ = _
    rw [checkContent_eq hc]
    exact bind_congr fun found => ih hrest

/-- The layout puts all sections into the payload, the counts bound the products, and the name is
one of the sections. -/
theorem check_eq (hh : Header.decode bytes = .ok h) : f.check h bytes = h.check bytes := by
  have hdrop : bytes.drop? h.payloadOffset = some (h.payload bytes) := by
    rw [Bytes.drop?, if_pos (Header.payloadOffset_le hh), Header.payload_eq_drop]
  rw [check, Header.check, hdrop]
  show (checkLayout (h.payload bytes).length none h.sections >>= _) = _
  refine bind_congr_ok fun _ hlayout => bind_congr_ok fun _ hcounts => ?_
  have hlaid := (checkLayout_eq_ok.1 hlayout).1
  have hbounded := Counts.check_eq_ok.1 hcounts
  rw [checkContents_eq hbounded hlaid.inside]
  refine bind_congr_ok fun found hfound => ?_
  obtain ⟨name, rfl⟩ := Format.exists_eq_some_of_checkContents hbounded hfound
  rfl

/-- The answers make no difference to any load. -/
theorem load_eq (f : Fallbacks) (loader : Loader) (artifact : Option Region) :
    f.load loader artifact = loader.load artifact := by
  cases artifact with
  | none => rfl
  | some artifact =>
    rw [load, Loader.load, decodeVersion_eq, decode_eq]
    refine bind_congr fun _ => bind_congr fun version => bind_congr fun _ => ?_
    refine bind_congr_ok fun h hh => ?_
    rw [check_eq (mapError_eq_ok.1 hh)]

end Fallbacks

namespace Loader

open Format Integrity

variable {range : VersionRange} {bytes : Bytes} {checks : List Check} {c : Check} {e : LoadError}
  {s : Section} {expected actual : Nat}

/-- Only a check of a length reports a wrong length. -/
theorem eq_length_of_error
    (h : c.error range bytes = .defective (.sectionLength s expected actual)) :
    c = .length s expected := by
  cases c <;> cases h
  rfl

/-- A wrong length is not reported before the counts have been found in bounds. -/
theorem counts_of_sectionLength (h : FirstFailure range bytes (Check.all bytes)
    (.defective (.sectionLength s expected actual))) : ∀ c ∈ Check.counts, c.Holds range bytes := by
  have hnot : ∀ {checks : List Check}, (∀ s n, Check.length s n ∉ checks) →
      ¬FirstFailure range bytes checks (.defective (.sectionLength s expected actual)) := by
    intro checks hchecks h
    obtain ⟨before, c, after, hsplit, _, _, he⟩ := h
    refine hchecks s expected ?_
    rw [← eq_length_of_error he.symm, hsplit]
    simp
  rw [Check.all, firstFailure_append, firstFailure_append, firstFailure_append] at h
  rcases h with h | ⟨_, h | ⟨_, h | ⟨hcounts, _⟩⟩⟩
  · exact absurd h (hnot fun s n hmem => by simp at hmem)
  · refine absurd h (hnot fun s n hmem => ?_)
    rcases mem_layout hmem with ⟨t, _, heq⟩ | ⟨t, u, _, heq⟩
    · cases heq
    · cases heq
  · exact absurd h (hnot fun s n hmem => by simp [Check.counts] at hmem)
  · exact hcounts

/-- The length that a table should have had is an exact product. -/
theorem expected_lt {loader : Loader} {artifact : Option Region}
    (h : loader.load artifact = .error (.defective (.sectionLength s expected actual))) :
    expected < 2 ^ 49 := by
  obtain ⟨hfirst, _, himplied, _⟩ := (load_eq_error_iff loader artifact _).1 h
  have hcounts := counts_of_sectionLength hfirst
  have hsymbols : symbols (given artifact) < 4294967296 := word_lt _ _
  have hlarge : largeStates (given artifact) ≤ states (given artifact) :=
    hcounts (.bounded .largeStates .states) (by simp [Check.counts])
  have hstates : states (given artifact) ≤ 65536 := hcounts .states (by simp [Check.counts])
  cases s with
  | name | symbolNames | fieldNames => cases himplied
  | symbolMetadata | lexModes | primaryStateIds =>
    obtain rfl := Option.some.inj himplied
    omega
  | parseTable =>
    obtain rfl := Option.some.inj himplied
    exact Fallbacks.parseTable_lt (Nat.le_trans hlarge hstates) hsymbols

/-- No load needs an answer that an earlier check makes superfluous: other answers change nothing.
The products that it computes for tables are all below `2 ^ 49`, and so is every length that it
reports as expected. A language that is loaded has all sections of its version. -/
theorem neverFallsBack (loader : Loader) (artifact : Option Region) :
    (∀ f : Fallbacks, f.load loader artifact = loader.load artifact) ∧
    (∀ c : Counts, c.check = .ok () → ∀ p ∈ Fallbacks.products c,
      ∃ n, tableLength? p.1 p.2 = some n ∧ n < 2 ^ 49) ∧
    (∀ s expected actual,
      loader.load artifact = .error (.defective (.sectionLength s expected actual)) →
        expected < 2 ^ 49) ∧
    ∀ l, loader.load artifact = .ok l → ∀ s ∈ Section.ofVersion l.version,
      ∃ data, l.section? s = some data := by
  refine ⟨fun f => f.load_eq loader artifact, fun c hc p hp => ?_, fun _ _ _ => expected_lt, ?_⟩
  · exact Fallbacks.exists_tableLength? (Counts.check_eq_ok.1 hc) hp
  · intro l hl s hs
    cases artifact with
    | none => nomatch hl
    | some artifact =>
      obtain ⟨_, data, _, _, hdata, _⟩ := exists_section hl hs
      exact ⟨data, hdata⟩

/-- Answers that give something away wherever they are given. -/
def unmistakable : Fallbacks where
  word _ _ := .ok 0
  payload := .ok [1]
  contents _ _ _ := .ok []
  length := .ok 7
  name := .ok "fallback"

set_option maxRecDepth 4000 in
/-- An artifact with one state less than its tables are made for is refused on the lexer modes. -/
theorem neverFallsBack_displaced : ∃ artifact : Region,
    unmistakable.load default (some artifact) =
      .error (.defective (.sectionLength .lexModes 8 12)) ∧
    8 < 2 ^ 49 ∧
    (∃ n, tableLength? [2, 2] Layout.parseTableEntry = some n ∧ n < 2 ^ 49) ∧
    ∃ l, (default : Loader).load (some (displaced [])) = .ok l ∧
      ∃ data, l.section? .primaryStateIds = some data := by
  obtain ⟨artifact, hload⟩ : ∃ artifact : Region, (default : Loader).load (some artifact) =
      .error (.defective (.sectionLength .lexModes 8 12)) :=
    ⟨displaced [.word Layout.stateCount 2], rfl⟩
  obtain ⟨l, hl, hversion⟩ : ∃ l, (default : Loader).load (some (displaced [])) = .ok l ∧
      l.version = 14 := ⟨_, rfl, rfl⟩
  have hnever := neverFallsBack default (some artifact)
  refine ⟨artifact, (hnever.1 _).trans hload, hnever.2.2.1 _ _ _ hload, ?_, l, hl, ?_⟩
  · exact hnever.2.1 Draft.straight.counts rfl ([2, 2], Layout.parseTableEntry) (by decide)
  · refine (neverFallsBack default (some (displaced []))).2.2.2 l hl .primaryStateIds ?_
    rw [hversion]
    decide

end Loader

end GrammarArtifact
