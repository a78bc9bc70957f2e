import GrammarArtifact.Proofs.Format
import GrammarArtifact.Proofs.Loading
import GrammarArtifact.Proofs.Structure

/-! Loading accepts exactly the well-formed artifacts: `Format.wellFormed_iff` finds in the format
what each stage of a load establishes. -/

namespace GrammarArtifact

namespace Format

variable {bytes : Bytes} {range : VersionRange}

theorem Framed.payload_header (h : Framed bytes) :
    (header bytes).payload bytes = payload bytes := by
  rw [Header.payload, payloadOffset_header, Bytes.drop?, if_pos h.fits]
  rfl

theorem header_version_mem : (header bytes).version ∈ range ↔
    range.min.toNat ≤ version bytes ∧ version bytes ≤ range.max.toNat := by
  have hver : (header bytes).version.toNat = version bytes := toNat_ofNat_word bytes 8
  rw [VersionRange.mem_iff, UInt32.le_iff_toNat_le, UInt32.le_iff_toNat_le, hver]

theorem ofNat_word_le {m n : Nat} : UInt32.ofNat (word bytes m) ≤ UInt32.ofNat (word bytes n) ↔
    word bytes m ≤ word bytes n := by
  rw [UInt32.le_iff_toNat_le, toNat_ofNat_word, toNat_ofNat_word]

theorem ofNat_states_le : UInt32.ofNat (states bytes) ≤ Layout.maxStates ↔
    states bytes ≤ 65536 := by
  rw [UInt32.le_iff_toNat_le, states, toNat_ofNat_word]
  rfl

theorem bounded_header : (header bytes).counts.Bounded ↔ tokens bytes ≤ symbols bytes ∧
    externals bytes ≤ tokens bytes ∧ largeStates bytes ≤ states bytes ∧ states bytes ≤ 65536 := by
  constructor
  · rintro ⟨ht, hx, hl, hs⟩
    exact ⟨ofNat_word_le.1 ht, ofNat_word_le.1 hx, ofNat_word_le.1 hl, ofNat_states_le.1 hs⟩
  · rintro ⟨ht, hx, hl, hs⟩
    exact ⟨ofNat_word_le.2 ht, ofNat_word_le.2 hx, ofNat_word_le.2 hl, ofNat_states_le.2 hs⟩

theorem offset_extent (s : Section) : (extent bytes s).offset.toNat = start bytes s :=
  toNat_ofNat_word _ _

theorem stop_extent (s : Section) : (extent bytes s).stop = start bytes s + size bytes s := by
  rw [Extent.stop, extent, start, size, toNat_ofNat_word, toNat_ofNat_word]

theorem laid_header {limit : Nat} : Integrity.Laid limit (header bytes).sections ↔
    (∀ s : Section, s.index < sectionCount bytes → start bytes s + size bytes s ≤ limit) ∧
    ∀ s t : Section, s.index < t.index → t.index < sectionCount bytes →
      start bytes s + size bytes s ≤ start bytes t := by
  have hinside : (∀ p ∈ (header bytes).sections, p.2.stop ≤ limit) ↔
      ∀ s : Section, s.index < sectionCount bytes → start bytes s + size bytes s ≤ limit := by
    simp only [sections_header, List.forall_mem_map, Section.mem_ofVersion_iff_index_lt,
      length_ofVersion, stop_extent]
  have hordered : ((header bytes).sections.Pairwise fun p q => p.2.stop ≤ q.2.offset.toNat) ↔
      ∀ s t : Section, s.index < t.index → t.index < sectionCount bytes →
        start bytes s + size bytes s ≤ start bytes t := by
    simp only [sections_header, List.pairwise_map, Section.pairwise_ofVersion, length_ofVersion,
      stop_extent, offset_extent]
  exact ⟨fun ⟨hin, hord⟩ => ⟨hinside.1 hin, hordered.1 hord⟩,
    fun ⟨hin, hord⟩ => ⟨hinside.2 hin, hordered.2 hord⟩⟩

theorem slice?_extent {s : Section} {data : Bytes} :
    (extent bytes s).slice? (payload bytes) = some data ↔
      start bytes s + size bytes s ≤ (payload bytes).length ∧ data = contents bytes s := by
  rw [Extent.slice?, Bytes.slice?_eq_some_iff, extent, contents, start, size, toNat_ofNat_word,
    toNat_ofNat_word]

theorem fitsAt_extent {c : Counts} {s : Section} :
    Integrity.FitsAt c (payload bytes) (s, extent bytes s) ↔
      start bytes s + size bytes s ≤ (payload bytes).length ∧ c.Fits (contents bytes s) s := by
  constructor
  · rintro ⟨data, hslice, hfits⟩
    obtain ⟨hle, rfl⟩ := slice?_extent.1 hslice
    exact ⟨hle, hfits⟩
  · rintro ⟨hle, hfits⟩
    exact ⟨_, slice?_extent.2 ⟨hle, rfl⟩, hfits⟩

theorem isStringTable_iff_count {n : Nat} {data : Bytes} :
    IsStringTable n data ↔ StringTable.count data = some n :=
  StringTable.count_eq_some_iff.symm

theorem toNat_symbols : (header bytes).counts.symbols.toNat = symbols bytes := toNat_ofNat_word _ _

theorem toNat_fields : (header bytes).counts.fields.toNat = fields bytes := toNat_ofNat_word _ _

theorem toNat_states : (header bytes).counts.states.toNat = states bytes := toNat_ofNat_word _ _

theorem toNat_largeStates : (header bytes).counts.largeStates.toNat = largeStates bytes :=
  toNat_ofNat_word _ _

/-- What the contents of the sections have to be, section by section. -/
theorem fits_header : (∀ s : Section, s.index < sectionCount bytes →
      (header bytes).counts.Fits (contents bytes s) s) ↔
    (∃ name, name ≠ "" ∧ Bytes.ofText name = contents bytes .name) ∧
    IsStringTable (symbols bytes) (contents bytes .symbolNames) ∧
    (contents bytes .symbolMetadata).length = symbols bytes ∧
    IsStringTable (fields bytes) (contents bytes .fieldNames) ∧
    (contents bytes .parseTable).length = 2 * largeStates bytes * symbols bytes ∧
    (contents bytes .lexModes).length = 4 * states bytes ∧
    (14 ≤ version bytes → (contents bytes .primaryStateIds).length = 2 * states bytes) := by
  have hsix : ∀ {s : Section}, s ≠ .primaryStateIds → s.index < sectionCount bytes := by
    intro s hs
    have hlt := Section.index_lt_six.2 hs
    unfold sectionCount
    split <;> omega
  have hseven : Section.primaryStateIds.index < sectionCount bytes ↔ 14 ≤ version bytes := by
    rw [sectionCount, Section.index]
    split <;> omega
  rw [isStringTable_iff_count, isStringTable_iff_count, ← toNat_symbols, ← toNat_fields,
    ← toNat_largeStates, ← toNat_states]
  constructor
  · intro h
    have hfits : ∀ s : Section, s ≠ .primaryStateIds →
        (header bytes).counts.Fits (contents bytes s) s := fun s hs => h s (hsix hs)
    exact ⟨hfits .name (by decide), hfits .symbolNames (by decide),
      hfits .symbolMetadata (by decide), hfits .fieldNames (by decide),
      hfits .parseTable (by decide), hfits .lexModes (by decide),
      fun hv => h .primaryStateIds (hseven.2 hv)⟩
  · rintro ⟨hname, hsyms, hmetadata, hflds, hparse, hlex, hids⟩ s hs
    cases s with
    | name => exact hname
    | symbolNames => exact hsyms
    | symbolMetadata => exact hmetadata
    | fieldNames => exact hflds
    | parseTable => exact hparse
    | lexModes => exact hlex
    | primaryStateIds => exact hids (hseven.1 hs)

/-- The stages of a load, found in the format. -/
theorem wellFormed_iff : WellFormed range bytes ↔ Framed bytes ∧
    (header bytes).version ∈ range ∧ (header bytes).Sound ((header bytes).payload bytes) := by
  have hfitsAt : (∀ p ∈ (header bytes).sections,
        Integrity.FitsAt (header bytes).counts (payload bytes) p) ↔
      ∀ s : Section, s.index < sectionCount bytes →
        start bytes s + size bytes s ≤ (payload bytes).length ∧
          (header bytes).counts.Fits (contents bytes s) s := by
    simp only [sections_header, List.forall_mem_map, Section.mem_ofVersion_iff_index_lt,
      length_ofVersion, fitsAt_extent]
  rw [header_version_mem]
  constructor
  · intro h
    refine ⟨h.toFramed, h.inRange, ?_⟩
    rw [h.toFramed.payload_header]
    refine ⟨laid_header.2 ⟨h.inside, h.ordered⟩, bounded_header.2 ⟨h.tokensBounded,
      h.externalsBounded, h.largeStatesBounded, h.statesBounded⟩, hfitsAt.2 fun s hs => ?_⟩
    exact ⟨h.inside s hs, fits_header.2 ⟨h.name, h.symbolNames, h.symbolMetadata, h.fieldNames,
      h.parseTable, h.lexModes, h.primaryStateIds⟩ s hs⟩
  · rintro ⟨hframed, hrange, hsound⟩
    rw [hframed.payload_header] at hsound
    obtain ⟨hlaid, hbounded, hfits⟩ := hsound
    obtain ⟨hinside, hordered⟩ := laid_header.1 hlaid
    obtain ⟨ht, hx, hl, hs⟩ := bounded_header.1 hbounded
    obtain ⟨hname, hsymbols, hmetadata, hfields, hparse, hlex, hids⟩ :=
      fits_header.1 fun s hs => (hfitsAt.1 hfits s hs).2
    exact ⟨hframed, hrange, hinside, hordered, ht, hx, hl, hs, hname, hsymbols, hmetadata, hfields,
      hparse, hlex, hids⟩

end Format

namespace Loader

/-- A loader accepts exactly the well-formed artifacts of its versions. -/
theorem accepts_iff_wellFormed (loader : Loader) (artifact : Region) :
    (∃ l, loader.load (some artifact) = .ok l) ↔
      Format.WellFormed loader.versions artifact.bytes := by
  rw [Format.wellFormed_iff, ← Header.exists_check_eq_ok]
  constructor
  · rintro ⟨l, hl⟩
    obtain ⟨hdecode, hmem, hcheck, -⟩ := load_eq_ok.1 hl
    obtain ⟨hframed, hheader⟩ := Format.decode_eq_ok.1 hdecode
    exact ⟨hframed, hheader ▸ hmem, l.name, hheader ▸ hcheck⟩
  · rintro ⟨hframed, hmem, name, hcheck⟩
    exact ⟨⟨artifact, Format.header artifact.bytes, name⟩,
      load_eq_ok.2 ⟨Format.decode_eq_ok.2 ⟨hframed, rfl⟩, hmem, hcheck, rfl⟩⟩

end Loader

end GrammarArtifact
