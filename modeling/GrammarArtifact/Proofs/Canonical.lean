import GrammarArtifact.Proofs.Access
import Mathlib.Data.Set.List

/-! Artifacts that are written again as they were. A language gives back a draft
(`Language.draft?`): the names and flags of its symbols, its fields and counts. What a draft leaves
out are the gaps between the sections and the contents of the tables that an encoder fills in by
itself; an artifact is `Language.Canonical` when it has no gaps and nothing else in these tables.
Then, and only then, the draft is encoded as that artifact (`Loader.canonical_iff`). -/

namespace GrammarArtifact

/-! ## The draft of a language -/

namespace Symbol

variable {names : List String} {flags : Bytes}

/-- Symbols with names and flags that are listed apart. -/
def zip (names : List String) (flags : Bytes) : List Symbol :=
  (names.zip flags).map fun p => ⟨p.1, ⟨p.2⟩⟩

theorem length_zip (h : names.length = flags.length) : (zip names flags).length = flags.length := by
  rw [zip, List.length_map, List.length_zip, h, Nat.min_self]

theorem map_name_zip (h : names.length = flags.length) :
    (zip names flags).map (·.name) = names := by
  rw [zip, List.map_map]
  exact List.map_fst_zip (Nat.le_of_eq h)

theorem map_bits_zip (h : names.length = flags.length) :
    (zip names flags).map (·.flags.bits) = flags := by
  rw [zip, List.map_map]
  exact List.map_snd_zip (Nat.le_of_eq h.symm)

end Symbol

namespace Language

/-- The strings of a section, if all of them are texts. -/
def texts? (l : Language) (s : Section) : Option (List String) :=
  (l.section? s).bind fun data => (StringTable.split data).mapM Bytes.text?

/-- A draft with the name, the version and the counts of a language. -/
def draftOf (l : Language) (names : List String) (flags : Bytes) (fields : List String) :
    Draft where
  name := l.name
  version := l.version
  symbols := Symbol.zip names flags
  fields := fields
  tokens := l.counts.tokens
  externals := l.counts.externals
  states := l.counts.states
  largeStates := l.counts.largeStates

/-- A draft of what a language says. All bits of the flags are kept. -/
def draft? (l : Language) : Option Draft := do
  let names ← l.texts? .symbolNames
  let flags ← l.section? .symbolMetadata
  let fields ← l.texts? .fieldNames
  return l.draftOf names flags fields

/-- The sections fill the payload without gaps, and what a draft does not say of them is what an
encoder puts there. -/
structure Canonical (l : Language) : Prop where
  contiguous : ∃ last, Contiguous 0 (l.header.sections.map Prod.snd) last ∧
    l.header.payloadOffset + last = l.bytes.length
  parseTable : ∀ data ∈ l.section? .parseTable, ∀ b ∈ data, b = 0
  lexModes : ∀ data ∈ l.section? .lexModes, ∀ b ∈ data, b = 0
  stateIds : ∀ data ∈ l.section? .primaryStateIds,
    LittleEndian.halves? data = some (List.range l.counts.states.toNat)
  symbolNames : ∀ data ∈ l.section? .symbolNames, ∀ s ∈ StringTable.split data,
    ∃ text, Bytes.ofText text = s
  fieldNames : ∀ data ∈ l.section? .fieldNames, ∀ s ∈ StringTable.split data,
    ∃ text, Bytes.ofText text = s

section

variable {l : Language} {d : Draft} {s : Section} {data : Bytes} {texts : List String}

theorem texts?_eq_some (hs : l.section? s = some data) :
    l.texts? s = some texts ↔ texts.map Bytes.ofText = StringTable.split data := by
  rw [texts?, hs, Option.bind_some, Bytes.mapM_text?_eq_some_iff]

theorem draft?_eq_some : l.draft? = some d ↔ ∃ names flags fields,
    l.texts? .symbolNames = some names ∧ l.section? .symbolMetadata = some flags ∧
    l.texts? .fieldNames = some fields ∧ d = l.draftOf names flags fields := by
  simp only [draft?, Option.bind_eq_bind, Option.bind_eq_some_iff, Option.pure_def,
    Option.some.injEq, exists_and_left, eq_comm (a := d)]

/-- Texts are read from a section exactly when all of its strings are texts. -/
theorem exists_texts?_iff (hs : l.section? s = some data) : (∃ texts, l.texts? s = some texts) ↔
    ∀ string ∈ StringTable.split data, ∃ text, Bytes.ofText text = string := by
  simp only [texts?_eq_some hs]
  show StringTable.split data ∈ Set.range (List.map Bytes.ofText) ↔ _
  rw [Set.range_list_map]
  rfl

/-- The texts of a table that was counted make up the table. -/
theorem encode_of_texts? (hs : l.section? s = some data) {n : Nat}
    (hcount : StringTable.count data = some n) (htexts : l.texts? s = some texts) :
    texts.length = n ∧ StringTable.encode (texts.map Bytes.ofText) = data := by
  have hsplit := (texts?_eq_some hs).1 htexts
  obtain ⟨hterminated, hn⟩ := StringTable.count_eq_some.1 hcount
  have hlength := congrArg List.length hsplit
  rw [List.length_map, StringTable.length_split hterminated] at hlength
  exact ⟨hlength.trans hn, by rw [hsplit, StringTable.encode_split hterminated]⟩

end

/-- What a draft has in common with the language it was made from, whatever is in the tables. -/
structure Redrafted (l : Language) (d : Draft) : Prop where
  name : d.name = l.name
  version : d.version = l.version
  counts : d.counts = l.counts
  symbolCount : d.symbols.length = l.counts.symbols.toNat
  fieldCount : d.fields.length = l.counts.fields.toNat
  symbolNames : l.section? .symbolNames = some (d.sectionBytes .symbolNames)
  symbolMetadata : l.section? .symbolMetadata = some (d.sectionBytes .symbolMetadata)
  fieldNames : l.section? .fieldNames = some (d.sectionBytes .fieldNames)

namespace Redrafted

variable {l : Language} {d : Draft}

theorem states (hr : l.Redrafted d) : d.states = l.counts.states :=
  congrArg Counts.states hr.counts

theorem largeStates (hr : l.Redrafted d) : d.largeStates = l.counts.largeStates :=
  congrArg Counts.largeStates hr.counts

theorem symbols_le (hr : l.Redrafted d) : d.symbols.length ≤ Layout.maxWord := by
  rw [hr.symbolCount]
  exact Nat.le_of_lt_succ l.counts.symbols.toNat_lt

theorem fields_le (hr : l.Redrafted d) : d.fields.length ≤ Layout.maxWord := by
  rw [hr.fieldCount]
  exact Nat.le_of_lt_succ l.counts.fields.toNat_lt

end Redrafted

end Language

namespace Loader

open GrammarArtifact.Language

variable {loader : Loader} {artifact : Region} {l : Language} {d : Draft}

theorem redrafted_of_load (hl : loader.load (some artifact) = .ok l) (hd : l.draft? = some d) :
    l.Redrafted d := by
  obtain ⟨names, flags, fields, hnames, hflags, hfields, rfl⟩ := draft?_eq_some.1 hd
  obtain ⟨symbolNames, hsymbols, hsymbolCount⟩ := @exists_fits _ _ _ .symbolNames hl (by decide)
  obtain ⟨metadata, hmetadata, hmetadataLength⟩ := @exists_fits _ _ _ .symbolMetadata hl (by decide)
  obtain ⟨fieldNames, hfieldNames, hfieldCount⟩ := @exists_fits _ _ _ .fieldNames hl (by decide)
  obtain rfl : flags = metadata := Option.some.inj (hflags.symm.trans hmetadata)
  obtain ⟨hnamesLength, hnamesBytes⟩ := encode_of_texts? hsymbols hsymbolCount hnames
  obtain ⟨hfieldsLength, hfieldsBytes⟩ := encode_of_texts? hfieldNames hfieldCount hfields
  have hlength : names.length = flags.length := hnamesLength.trans hmetadataLength.symm
  have hsymbolsLength : (Symbol.zip names flags).length = l.counts.symbols.toNat :=
    (Symbol.length_zip hlength).trans hmetadataLength
  have hsymbolNames : (l.draftOf names flags fields).symbolNames = names :=
    Symbol.map_name_zip hlength
  exact {
    name := rfl
    version := rfl
    counts := by
      simp only [Draft.counts, Draft.symbolCount, Draft.fieldCount, draftOf, hsymbolsLength,
        hfieldsLength, UInt32.ofNat_toNat]
    symbolCount := hsymbolsLength
    fieldCount := hfieldsLength
    symbolNames := by rw [hsymbols, Draft.sectionBytes, hsymbolNames, hnamesBytes]
    symbolMetadata := hmetadata.trans (congrArg some (Symbol.map_bits_zip hlength).symm)
    fieldNames := hfieldNames.trans (congrArg some hfieldsBytes.symm) }

/-- Of a canonical artifact the draft says what is in every section. -/
theorem section?_of_canonical (hl : loader.load (some artifact) = .ok l) (hc : l.Canonical)
    (hr : l.Redrafted d) {s : Section} (hs : s ∈ Section.ofVersion l.version) :
    l.section? s = some (d.sectionBytes s) := by
  obtain ⟨_, data, -, -, hdata, hfits⟩ := exists_section hl hs
  obtain ⟨hsound, e, hextent, hslice⟩ := Header.check_eq_ok.1 (load_eq_ok.1 hl).2.2.1
  have hbounded := hsound.bounded
  cases s with
  | name =>
    rw [section?_of_load hl, hextent, Option.bind_some, hslice, ← hr.name]
    rfl
  | symbolNames => exact hr.symbolNames
  | symbolMetadata => exact hr.symbolMetadata
  | fieldNames => exact hr.fieldNames
  | parseTable =>
    have hmax : d.largeStates ≤ Layout.maxStates :=
      hr.largeStates ▸ UInt32.le_trans hbounded.largeStates hbounded.states
    have hlength : data.length = d.sectionLength .parseTable := by
      rw [Draft.sectionLength_parseTable_of_le hr.symbols_le hmax, hr.largeStates, hr.symbolCount]
      exact hfits
    rw [hdata, List.eq_replicate_iff.2 ⟨hlength, hc.parseTable data hdata⟩]
    rfl
  | lexModes =>
    have hlength : data.length = d.sectionLength .lexModes := by
      rw [Draft.sectionLength_lexModes, hr.states]
      exact hfits
    rw [hdata, List.eq_replicate_iff.2 ⟨hlength, hc.lexModes data hdata⟩]
    rfl
  | primaryStateIds =>
    rw [hdata, Draft.sectionBytes, hr.states,
      LittleEndian.flatMap_word16_of_halves? (hc.stateIds data hdata)]

/-- A draft that says what is in every section is encoded as the artifact. -/
theorem encode_of_section? (hl : loader.load (some artifact) = .ok l) (hc : l.Canonical)
    (hr : l.Redrafted d)
    (hsections : ∀ s ∈ Section.ofVersion l.version, l.section? s = some (d.sectionBytes s)) :
    d.encode = .ok artifact.bytes := by
  obtain ⟨hdecode, -, -, hartifact⟩ := load_eq_ok.1 hl
  obtain ⟨last, hcontiguous, hlast⟩ := hc.contiguous
  have hversion : l.header.version = d.version := hr.version.symm
  have hslices : ∀ p ∈ l.header.sections,
      p.2.slice? (l.header.payload artifact.bytes) = some (d.sectionBytes p.1) := by
    intro p hp
    have hmem : p.1 ∈ Section.ofVersion l.version := (List.of_mem_zip hp).1
    rw [← hsections p.1 hmem, section?_of_load hl, Header.mem_sections_iff.1 hp, Option.bind_some]
  have hlengths : ∀ p ∈ l.header.sections, p.2.length.toNat = d.sectionLength p.1 := by
    intro p hp
    rw [← d.length_sectionBytes, Bytes.length_of_slice? (hslices p hp)]
  have hpayload : l.header.payload artifact.bytes = d.payload := by
    have hall := hcontiguous.drop_eq hslices
    have hend : (l.header.payload artifact.bytes).length ≤ last := by
      rw [Header.length_payload]
      rw [Language.bytes, hartifact] at hlast
      omega
    rwa [List.drop_zero, List.drop_eq_nil_of_le hend, List.append_nil, Header.map_fst_sections,
      hversion] at hall
  have hstates : d.states ≤ Layout.maxStates := hr.states ▸ (sound_of_load hl).bounded.states
  have hheader : d.header = .ok l.header :=
    Draft.header_of_contiguous hversion hr.counts.symm hstates hr.symbols_le hr.fields_le
      hcontiguous hlengths
  refine Draft.encode_eq_ok.2 ⟨l.header, hheader, ?_⟩
  rw [← hpayload, Header.payload_eq_drop, ← Header.length_encode]
  exact List.prefix_iff_eq_append.1 (Header.decode_eq_ok_iff.1 hdecode)

/-- An artifact that its own draft is encoded as has no gaps, and its tables hold what an encoder
puts there. -/
theorem canonical_of_encode (hl : loader.load (some artifact) = .ok l) (hd : l.draft? = some d)
    (henc : d.encode = .ok artifact.bytes) : l.Canonical := by
  have hr := redrafted_of_load hl hd
  obtain ⟨h, hh, hbytes⟩ := Draft.encode_eq_ok.1 henc
  have hartifact : l.artifact = artifact := (load_eq_ok.1 hl).2.2.2
  obtain rfl : l.header = h := header_of_load hl hbytes
  have hsection := section?_eq_contents? hl
  have hread := (Draft.stored_of_header hh).readsBack
  rw [hbytes] at hread
  obtain ⟨names, flags, fields, hnames, -, hfields, -⟩ := draft?_eq_some.1 hd
  have hzeros : ∀ {s n}, l.header.contents? artifact.bytes s = some (Bytes.zeros n) →
      ∀ data ∈ l.section? s, ∀ b ∈ data, b = 0 := by
    intro s n hs data hdata b hb
    rw [hsection, hs] at hdata
    obtain rfl := Option.some.inj hdata
    exact List.eq_of_mem_replicate hb
  exact {
    contiguous := by
      rw [Language.bytes, hartifact]
      exact hread.contiguous
    parseTable := hzeros hread.parseTable
    lexModes := hzeros hread.lexModes
    stateIds := fun data hdata => by
      rw [hsection] at hdata
      by_cases hv : d.version < 14
      · rw [hread.noStateIds hv] at hdata
        exact absurd hdata.symm (Option.some_ne_none data)
      · have hids := hread.stateIds (UInt32.not_lt.1 hv)
        rwa [show l.header.contents? artifact.bytes .primaryStateIds = some data from hdata,
          Option.bind_some, hr.states] at hids
    symbolNames := fun data hdata => (exists_texts?_iff hdata).1 ⟨names, hnames⟩
    fieldNames := fun data hdata => (exists_texts?_iff hdata).1 ⟨fields, hfields⟩ }

/-- An artifact is canonical exactly when the draft of its language is encoded as it. -/
theorem canonical_iff (hl : loader.load (some artifact) = .ok l) :
    l.Canonical ↔ ∃ d, l.draft? = some d ∧ d.encode = .ok artifact.bytes := by
  constructor
  · intro hc
    obtain ⟨symbolNames, hsymbols, -⟩ := @exists_fits _ _ _ .symbolNames hl (by decide)
    obtain ⟨flags, hflags, -⟩ := @exists_fits _ _ _ .symbolMetadata hl (by decide)
    obtain ⟨fieldNames, hfieldNames, -⟩ := @exists_fits _ _ _ .fieldNames hl (by decide)
    obtain ⟨names, hnames⟩ := (exists_texts?_iff hsymbols).2 (hc.symbolNames _ hsymbols)
    obtain ⟨fields, hfields⟩ := (exists_texts?_iff hfieldNames).2 (hc.fieldNames _ hfieldNames)
    have hd : l.draft? = some (l.draftOf names flags fields) :=
      draft?_eq_some.2 ⟨names, flags, fields, hnames, hflags, hfields, rfl⟩
    have hr := redrafted_of_load hl hd
    exact ⟨_, hd, encode_of_section? hl hc hr fun s => section?_of_canonical hl hc hr⟩
  · rintro ⟨d, hd, henc⟩
    exact canonical_of_encode hl hd henc

set_option maxRecDepth 4000 in
theorem canonical_iff_straight : ∃ bytes l, Draft.straight.encode = .ok bytes ∧
    (⟨.full⟩ : Loader).load (some (.whole 0 bytes)) = .ok l ∧
    l.draft? = some Draft.straight ∧ l.Canonical := by
  obtain ⟨bytes, l, henc, hl, hd⟩ : ∃ bytes l, Draft.straight.encode = .ok bytes ∧
      (⟨.full⟩ : Loader).load (some (.whole 0 bytes)) = .ok l ∧ l.draft? = some Draft.straight :=
    ⟨_, _, rfl, rfl, rfl⟩
  exact ⟨bytes, l, henc, hl, hd, (canonical_iff hl).2 ⟨_, hd, henc⟩⟩

end Loader

end GrammarArtifact
