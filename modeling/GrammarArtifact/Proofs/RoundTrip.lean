import GrammarArtifact.Proofs.Placement

/-! Artifacts give back the drafts they were made from. `Draft.ReadsBack` says what a reader finds:
the counts in the header, the sections without gaps behind it, and in each section what the draft
says. None of it depends on whether a loader accepts the artifact. -/

namespace GrammarArtifact

namespace Header

variable {h : Header} {s : Section} {e : Extent} {payload : Bytes}

theorem drop?_encode (h : Header) (payload : Bytes) :
    (h.encode ++ payload).drop? h.payloadOffset = some payload := by
  have hle : h.payloadOffset ≤ (h.encode ++ payload).length := by
    rw [List.length_append, length_encode]
    exact Nat.le_add_right _ _
  rw [Bytes.drop?, if_pos hle, ← length_encode, List.drop_left]

theorem payload_encode (h : Header) (payload : Bytes) :
    h.payload (h.encode ++ payload) = payload := by
  rw [Header.payload, drop?_encode, Option.getD_some]

theorem contents?_of_extent? (he : h.extent? s = some e) :
    h.contents? (h.encode ++ payload) s = e.slice? payload := by
  simp only [contents?, drop?_encode, he, Option.bind_eq_bind, Option.bind_some]

theorem contents?_eq_none (he : h.extent? s = none) (bytes : Bytes) :
    h.contents? bytes s = none := by
  simp only [contents?, he, Option.bind_eq_bind, Option.bind_none, Option.bind_fun_none]

end Header

namespace Draft

variable {d : Draft} {h : Header} {bytes : Bytes} {s : Section}

/-- Every section of the version holds the bytes of the draft. -/
theorem Stored.contents? (hd : d.Stored h) (hs : s ∈ Section.ofVersion d.version) :
    h.contents? (h.encode ++ d.payload) s = some (d.sectionBytes s) := by
  cases he : h.extent? s with
  | none =>
    rw [Header.extent?_eq_none_iff, hd.version] at he
    exact absurd hs he
  | some e =>
    rw [Header.contents?_of_extent? he]
    exact hd.contents (s, e) (Header.mem_sections_iff.2 he)

theorem sectionBytes_parseTable (hd : d.Stored h) : d.sectionBytes .parseTable =
    Bytes.zeros (2 * d.largeStates.toNat * d.symbols.length) := by
  rw [sectionBytes, sectionLength_parseTable hd.symbolsHalved]

theorem sectionBytes_lexModes (d : Draft) :
    d.sectionBytes .lexModes = Bytes.zeros (4 * d.states.toNat) := by
  rw [sectionBytes, sectionLength_lexModes]

/-- The ids of as many states as a draft may have do not wrap. -/
theorem halves?_stateIds (hd : d.Stored h) :
    LittleEndian.halves? (d.sectionBytes .primaryStateIds) = some (List.range d.states.toNat) := by
  have hstates : d.states.toNat ≤ 65536 := UInt32.le_iff_toNat_le.1 hd.statesBounded
  refine LittleEndian.halves?_flatMap_word16 fun n hn => ?_
  exact Nat.lt_of_lt_of_le (List.mem_range.1 hn) hstates

/-- What a header and the bytes behind it say of the draft they were made from. -/
structure ReadsBack (d : Draft) (h : Header) (bytes : Bytes) : Prop where
  version : h.version = d.version
  symbols : h.counts.symbols.toNat = d.symbols.length
  tokens : h.counts.tokens = d.tokens
  externals : h.counts.externals = d.externals
  states : h.counts.states = d.states
  largeStates : h.counts.largeStates = d.largeStates
  fields : h.counts.fields.toNat = d.fields.length
  sections : h.sections.map Prod.fst = Section.ofVersion d.version
  /-- The first section starts the payload and the last one ends the artifact. -/
  contiguous : ∃ last, Contiguous 0 (h.sections.map Prod.snd) last ∧
    h.payloadOffset + last = bytes.length
  name : h.contents? bytes .name = some (Bytes.ofText d.name)
  symbolMetadata : h.contents? bytes .symbolMetadata = some (d.symbols.map (·.flags.bits))
  parseTable : h.contents? bytes .parseTable =
    some (Bytes.zeros (2 * d.largeStates.toNat * d.symbols.length))
  lexModes : h.contents? bytes .lexModes = some (Bytes.zeros (4 * d.states.toNat))
  stateIds : 14 ≤ d.version → (h.contents? bytes .primaryStateIds).bind LittleEndian.halves? =
    some (List.range d.states.toNat)
  noStateIds : d.version < 14 → h.contents? bytes .primaryStateIds = none
  symbolNames : h.contents? bytes .symbolNames =
    some (StringTable.encode (d.symbolNames.map Bytes.ofText))
  splitSymbolNames : (∀ name ∈ d.symbolNames, StringTable.nul ∉ name.toList) →
    (h.contents? bytes .symbolNames).map StringTable.split = some (d.symbolNames.map Bytes.ofText)
  fieldNames : h.contents? bytes .fieldNames =
    some (StringTable.encode (d.fields.map Bytes.ofText))
  splitFieldNames : (∀ name ∈ d.fields, StringTable.nul ∉ name.toList) →
    (h.contents? bytes .fieldNames).map StringTable.split = some (d.fields.map Bytes.ofText)

theorem Stored.readsBack (hd : d.Stored h) : d.ReadsBack h (h.encode ++ d.payload) := by
  have hall : ∀ s : Section, s ≠ .primaryStateIds →
      h.contents? (h.encode ++ d.payload) s = some (d.sectionBytes s) := by
    intro s hs
    exact hd.contents? (Section.mem_ofVersion.2 fun h => absurd h hs)
  have hsymbols : h.contents? (h.encode ++ d.payload) .symbolNames =
      some (StringTable.encode (d.symbolNames.map Bytes.ofText)) := hall .symbolNames (by decide)
  have hfields : h.contents? (h.encode ++ d.payload) .fieldNames =
      some (StringTable.encode (d.fields.map Bytes.ofText)) := hall .fieldNames (by decide)
  have hlength : h.payloadOffset + d.payload.length = (h.encode ++ d.payload).length := by
    rw [List.length_append, Header.length_encode]
  exact {
    version := hd.version
    symbols := by rw [hd.counts]; exact hd.symbolCount
    tokens := by rw [hd.counts]; rfl
    externals := by rw [hd.counts]; rfl
    states := by rw [hd.counts]; rfl
    largeStates := by rw [hd.counts]; rfl
    fields := by rw [hd.counts]; exact hd.fieldCount
    sections := by rw [h.map_fst_sections, hd.version]
    contiguous := ⟨_, hd.contiguous, hlength⟩
    name := hall .name (by decide)
    symbolMetadata := hall .symbolMetadata (by decide)
    parseTable := by rw [hall .parseTable (by decide), sectionBytes_parseTable hd]
    lexModes := by rw [hall .lexModes (by decide), sectionBytes_lexModes]
    stateIds := fun hv => by
      rw [hd.contents? (Section.mem_ofVersion.2 fun _ => hv), Option.bind_some,
        halves?_stateIds hd]
    noStateIds := fun hv => by
      refine Header.contents?_eq_none (Header.extent?_eq_none_iff.2 fun hmem => ?_) _
      rw [hd.version] at hmem
      exact absurd (Section.mem_ofVersion.1 hmem rfl) (UInt32.not_le.2 hv)
    symbolNames := hsymbols
    splitSymbolNames := fun hnul => by
      rw [hsymbols, Option.map_some, StringTable.split_encode_ofText hnul]
    fieldNames := hfields
    splitFieldNames := fun hnul => by
      rw [hfields, Option.map_some, StringTable.split_encode_ofText hnul] }

/-- Every artifact that is encoded has a header, and what it says is the draft. -/
theorem decode_of_encode (henc : d.encode = .ok bytes) :
    ∃ h, Header.decode bytes = .ok h ∧ d.ReadsBack h bytes := by
  obtain ⟨h, hh, rfl⟩ := encode_eq_ok.1 henc
  exact ⟨h, h.decode_encode _, (stored_of_header hh).readsBack⟩

/-- A draft that no loader accepts: its last symbol has a terminator in its name, and there are
more tokens than symbols. -/
def crooked : Draft where
  name := "crooked"
  symbols := [⟨"end", .empty⟩, ⟨"a\x00b", ⟨131⟩⟩]
  fields := ["left", "right"]
  tokens := 5
  states := 3
  largeStates := 1

theorem decode_of_encode_crooked : ∃ bytes, crooked.encode = .ok bytes ∧
    ∃ h, Header.decode bytes = .ok h ∧ crooked.ReadsBack h bytes :=
  ⟨_, rfl, decode_of_encode rfl⟩

/-- A draft that every loader of its version accepts. -/
def straight : Draft where
  name := "straight"
  symbols := [⟨"end", .empty⟩, ⟨"word", ⟨3⟩⟩]
  fields := ["left"]
  tokens := 2
  externals := 1
  states := 3
  largeStates := 2

end Draft

end GrammarArtifact
