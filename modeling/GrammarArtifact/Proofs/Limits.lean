import GrammarArtifact.Proofs.Acceptance
import GrammarArtifact.Proofs.RoundTrip

/-! What encoding answers at its limits. A draft is refused with the first thing that is too large,
and what is written otherwise is exact to the byte (`Draft.encode_exactly`). The products that give
the lengths of tables have sixty-four bits. None of them wraps where encoding comes to it: a list of
symbols that is long enough has been refused in front of the parse table
(`Draft.productsExact`). -/

namespace GrammarArtifact

namespace Format

variable (h : Header) (payload : Bytes)

/-! ## What is written behind a header -/

theorem framed_encode_append : Framed (h.encode ++ payload) :=
  (decode_eq_ok.1 (h.decode_encode payload)).1

/-- The words of an artifact are those of the header that it was written with. -/
theorem header_encode_append : header (h.encode ++ payload) = h :=
  (decode_eq_ok.1 (h.decode_encode payload)).2.symm

theorem version_encode_append : UInt32.ofNat (version (h.encode ++ payload)) = h.version :=
  congrArg Header.version (header_encode_append h payload)

theorem payload_encode_append : Format.payload (h.encode ++ payload) = payload := by
  rw [← (framed_encode_append h payload).payload_header, header_encode_append,
    Header.payload_encode]

end Format

namespace Draft

variable {d : Draft} {h : Header} {s : Section} {bytes : Bytes}

/-! ## Sizes in the artifact -/

/-- The directory entries and the length of an artifact are the exact ones. -/
structure WrittenExactly (d : Draft) (bytes : Bytes) : Prop where
  entries : ∀ s ∈ Section.ofVersion d.version,
    Format.start bytes s = d.exactOffset s ∧ Format.size bytes s = d.exactLength s
  length : bytes.length = 40 + 8 * (Section.ofVersion d.version).length +
    ((Section.ofVersion d.version).map d.exactLength).sum

theorem sectionLength_of_header (hh : d.header = .ok h) (hs : s ∈ Section.ofVersion d.version) :
    d.sectionLength s = d.exactLength s :=
  sectionLength_eq_exactLength fun _ ht =>
    not_tooLarge_of_header hh (Section.mem_ofVersion_of_index_lt ht hs)

theorem length_payload (hh : d.header = .ok h) :
    d.payload.length = ((Section.ofVersion d.version).map d.exactLength).sum := by
  rw [payload, List.length_flatMap]
  refine congrArg List.sum (List.map_congr_left fun s hs => ?_)
  rw [d.length_sectionBytes, sectionLength_of_header hh hs]

theorem Stored.mem_sections (hd : d.Stored h) (hs : s ∈ Section.ofVersion d.version) :
    (s, Format.extent (h.encode ++ d.payload) s) ∈ h.sections := by
  have hsections := Format.sections_header (h.encode ++ d.payload)
  rw [Format.header_encode_append, Format.version_encode_append, hd.version] at hsections
  rw [hsections]
  exact List.mem_map_of_mem hs

theorem Stored.contents_eq (hd : d.Stored h) (hs : s ∈ Section.ofVersion d.version) :
    Format.contents (h.encode ++ d.payload) s = d.sectionBytes s := by
  have hslice : (Format.extent (h.encode ++ d.payload) s).slice?
      (Format.payload (h.encode ++ d.payload)) = some (d.sectionBytes s) := by
    rw [Format.payload_encode_append]
    exact hd.contents _ (hd.mem_sections hs)
  exact (Format.slice?_extent.1 hslice).2.symm

theorem writtenExactly_of_header (hh : d.header = .ok h) :
    d.WrittenExactly (h.encode ++ d.payload) := by
  have hd := stored_of_header hh
  constructor
  · intro s hs
    obtain ⟨-, hoffset, hlength⟩ := exact_of_header hh _ (hd.mem_sections hs)
    exact ⟨(Format.toNat_ofNat_word _ _).symm.trans hoffset,
      (Format.toNat_ofNat_word _ _).symm.trans hlength⟩
  · rw [List.length_append, Header.length_encode, length_payload hh, Header.payloadOffset,
      h.length_directory, hd.version, Layout.headerLength, Nat.mul_comm]
    rfl

/-- Encoding refuses a draft with the first thing that is too large. Without such a thing there is
an artifact, in which no offset and no length is cut off. -/
theorem encode_exactly (d : Draft) : (∀ e, d.encode = .error e ↔ d.Excess e) ∧
    ((∀ e, ¬d.Excess e) → ∃ bytes, d.encode = .ok bytes ∧ d.WrittenExactly bytes) := by
  refine ⟨fun _ => encode_eq_error, fun hfits => ?_⟩
  cases hh : d.header with
  | error e => exact absurd (header_eq_error.1 hh) (hfits e)
  | ok h =>
    exact ⟨_, encode_eq_ok.2 ⟨h, hh, rfl⟩, writtenExactly_of_header hh⟩

/-- A draft with more large states than states. -/
def lopsided : Draft where
  name := "lopsided"
  symbols := [⟨"end", .empty⟩]
  states := 1
  largeStates := 3

/-- So many symbols without a name, and as many large states as a word can count. -/
def wide (symbols : Nat) : Draft where
  name := ""
  symbols := List.replicate symbols ⟨"", .empty⟩
  largeStates := 4294967295

theorem length_symbols_wide (n : Nat) : (wide n).symbols.length = n := List.length_replicate

theorem exactLength_symbolNames_wide (n : Nat) : (wide n).exactLength .symbolNames = n := by
  simp [exactLength, wide]

/-- A section without any bytes is refused when too much stands in front of it. -/
theorem excess_wide {n : Nat} (hcount : n ≤ Layout.maxWord) (h : Layout.maxWord < n + n) :
    (wide n).Excess (.sectionTooLarge .fieldNames) := by
  have hmetadata : (wide n).exactLength .symbolMetadata = n := length_symbols_wide n
  have hnames := exactLength_symbolNames_wide n
  have hsum : (wide n).exactOffset .fieldNames = 0 + ((wide n).exactLength .symbolNames +
      ((wide n).exactLength .symbolMetadata + 0)) := rfl
  have hoffset : (wide n).exactOffset .symbolMetadata =
      0 + ((wide n).exactLength .symbolNames + 0) := rfl
  refine .payload ⟨Nat.zero_le _, ?_, Nat.zero_le _⟩ (Section.mem_ofVersion_of_ne _ (by decide))
    (.inl ?_) fun t ht => not_tooLarge_iff.2 ?_
  · rwa [length_symbols_wide]
  · omega
  · cases t with
    | name => exact ⟨Nat.zero_le _, Nat.zero_le _⟩
    | symbolNames => exact ⟨Nat.zero_le _, by omega⟩
    | symbolMetadata => exact ⟨by omega, by omega⟩
    | fieldNames | parseTable | lexModes | primaryStateIds => exact absurd ht (by decide)

/-- The first draft is accepted although it has too many large states; the other one is refused at
its field names, which are empty. -/
theorem encode_exactly_lopsided_wide :
    (∃ bytes, lopsided.encode = .ok bytes ∧ lopsided.WrittenExactly bytes) ∧
      (wide 2147483649).exactLength .fieldNames = 0 ∧
      (wide 2147483649).encode = .error (.sectionTooLarge .fieldNames) := by
  obtain ⟨bytes, hok⟩ : ∃ bytes, lopsided.encode = .ok bytes := ⟨_, rfl⟩
  refine ⟨(encode_exactly lopsided).2 fun e he => ?_, rfl,
    ((encode_exactly _).1 _).2 (excess_wide (by decide) (by decide))⟩
  rw [((encode_exactly lopsided).1 e).2 he] at hok
  nomatch hok

/-! ## Products of sixty-four bits -/

/-- Encoding comes to a section of the version unless it has failed before: on the number of
states, symbols or fields, or on a section in front of this one. -/
def Reaches (d : Draft) (s : Section) : Prop :=
  s ∈ Section.ofVersion d.version ∧
    ∀ e, d.encode = .error e → ∃ t, e = .sectionTooLarge t ∧ s.index ≤ t.index

theorem reaches_iff : d.Reaches s ↔ d.Numbered ∧ s ∈ Section.ofVersion d.version ∧
    ∀ t, t.index < s.index → ¬d.TooLarge t := by
  constructor
  · rintro ⟨hs, hreached⟩
    have hexcess : ∀ e, d.Excess e → ∃ t, e = .sectionTooLarge t ∧ s.index ≤ t.index :=
      fun e he => hreached e (encode_eq_error.2 he)
    have hnumbered : d.Numbered := by
      refine Classical.byContradiction fun hnot => ?_
      obtain ⟨e, he, hne⟩ := exists_excess_of_not_numbered hnot
      obtain ⟨t, ht, -⟩ := hexcess e he
      exact hne t ht
    refine ⟨hnumbered, hs, fun t ht hlarge => ?_⟩
    have hmem := Section.mem_ofVersion_of_index_lt ht hs
    obtain ⟨u, hu, hlarge', hbefore⟩ := exists_first_tooLarge hmem hlarge
    obtain ⟨_, ⟨⟩, hle⟩ := hexcess _ (.payload hnumbered hu hlarge' hbefore)
    exact hbefore t (Nat.lt_of_lt_of_le ht hle) hlarge
  · rintro ⟨hnumbered, hs, hbefore⟩
    refine ⟨hs, fun e he => ?_⟩
    cases encode_eq_error.1 he with
    | states h => exact absurd hnumbered.states (Nat.not_le.2 h)
    | symbols _ h => exact absurd hnumbered.symbols (Nat.not_le.2 h)
    | fields _ _ h => exact absurd hnumbered.fields (Nat.not_le.2 h)
    | payload _ _ h _ => exact ⟨_, rfl, Nat.le_of_not_lt fun hlt => hbefore _ hlt h⟩

/-- Where encoding does not come to a section of the version, it has failed before. -/
theorem encode_of_not_reaches (hs : s ∈ Section.ofVersion d.version)
    (hstates : d.states.toNat ≤ 65536) (h : ¬d.Reaches s) :
    d.encode = .error .tooManySymbols ∨ d.encode = .error .tooManyFields ∨
      ∃ t, t.index < s.index ∧ d.encode = .error (.sectionTooLarge t) := by
  cases henc : d.encode with
  | ok bytes =>
    refine absurd ⟨hs, fun e he => ?_⟩ h
    cases henc.symm.trans he
  | error e =>
    cases encode_eq_error.1 henc with
    | states h => exact absurd hstates (Nat.not_le.2 h)
    | symbols => exact .inl rfl
    | fields => exact .inr (.inl rfl)
    | @payload t hnumbered _ _ hbefore =>
      refine .inr (.inr ⟨t, Nat.lt_of_not_le fun hle => h ?_, rfl⟩)
      exact reaches_iff.2 ⟨hnumbered, hs, fun u hu => hbefore u (Nat.lt_of_lt_of_le hu hle)⟩

/-- The products that encoding computes are exact. -/
structure ProductsExact (d : Draft) : Prop where
  /-- Neither the number of entries nor the number of bytes of a parse table wraps. -/
  parseTable : d.Reaches .parseTable → d.symbolCount.toNat = d.symbols.length ∧
    d.largeStates.toNat * d.symbolCount.toNat ≤ Layout.maxLong ∧
    d.largeStates.toNat * d.symbolCount.toNat * Layout.parseTableEntry ≤ Layout.maxLong
  lexModes : d.states.toNat * Layout.lexModeEntry ≤ Layout.maxLong
  stateIds : d.states.toNat * Layout.stateIdEntry ≤ Layout.maxLong
  /-- Where a product would wrap, encoding fails in front of the parse table. -/
  refused : d.states.toNat ≤ 65536 →
    Layout.maxLong < d.largeStates.toNat * d.symbols.length * Layout.parseTableEntry →
    d.encode = .error .tooManySymbols ∨ d.encode = .error .tooManyFields ∨
      ∃ s, s.index < Section.parseTable.index ∧ d.encode = .error (.sectionTooLarge s)
  /-- What a section is filled up to is its exact length. -/
  filled : ∀ s, d.Reaches s → d.sectionLength s = d.exactLength s
  written : ∀ bytes, d.encode = .ok bytes → ∀ s ∈ Section.ofVersion d.version,
    (Format.contents bytes s).length = d.exactLength s

theorem Reaches.symbolsHalved (hreached : d.Reaches .parseTable) :
    2 * d.symbols.length ≤ Layout.maxWord :=
  two_mul_length_symbols_le ((reaches_iff.1 hreached).2.2 .fieldNames (by decide))

theorem productsExact (d : Draft) : d.ProductsExact where
  parseTable hreached := by
    have hhalved := hreached.symbolsHalved
    have hlt := two_mul_entries_lt hhalved
    rw [toNat_symbolCount hhalved, Layout.parseTableEntry, Layout.maxLong]
    omega
  lexModes := by
    have hlt := d.states.toNat_lt
    rw [Layout.lexModeEntry, Layout.maxLong]
    omega
  stateIds := by
    have hlt := d.states.toNat_lt
    rw [Layout.stateIdEntry, Layout.maxLong]
    omega
  refused hstates hlong := by
    refine encode_of_not_reaches (Section.mem_ofVersion_of_ne _ (by decide)) hstates ?_
    intro hreached
    have hlt := two_mul_entries_lt hreached.symbolsHalved
    rw [Layout.parseTableEntry, Layout.maxLong] at hlong
    omega
  filled s hreached := sectionLength_eq_exactLength (reaches_iff.1 hreached).2.2
  written bytes henc s hs := by
    obtain ⟨h, hh, rfl⟩ := encode_eq_ok.1 henc
    rw [(stored_of_header hh).contents_eq hs, length_sectionBytes]
    exact sectionLength_of_header hh hs

theorem reaches_parseTable_wide : (wide 2).Reaches .parseTable := by
  refine reaches_iff.2 ⟨⟨by decide, by decide, by decide⟩,
    Section.mem_ofVersion_of_ne _ (by decide), fun t ht => ?_⟩
  cases t with
  | name | symbolNames | symbolMetadata | fieldNames => decide
  | parseTable | lexModes | primaryStateIds => exact absurd ht (by decide)

/-- With many symbols, the product wraps to a length that a word would hold, but encoding does not
come to it. With two it does; the product takes more than a word and is exact, and the parse table
is refused for it. -/
theorem productsExact_wide : (wide 2147483649).sectionLength .parseTable = 4294967294 ∧
    ¬(wide 2147483649).Reaches .parseTable ∧ (wide 2).Reaches .parseTable ∧
    2 ^ 32 < (wide 2).largeStates.toNat * (wide 2).symbolCount.toNat ∧
    (wide 2).largeStates.toNat * (wide 2).symbolCount.toNat * Layout.parseTableEntry ≤
      Layout.maxLong ∧
    (wide 2).sectionLength .parseTable = 17179869180 ∧
    (wide 2).encode = .error (.sectionTooLarge .parseTable) := by
  have hcount := length_symbols_wide 2147483649
  have hreached := reaches_parseTable_wide
  refine ⟨?_, fun hreached => ?_, hreached, by decide,
    ((productsExact (wide 2)).parseTable hreached).2.2,
    (productsExact (wide 2)).filled .parseTable hreached, rfl⟩
  · rw [sectionLength, symbolCount, hcount]
    rfl
  · obtain ⟨hexact, -, hproduct⟩ := (productsExact (wide 2147483649)).parseTable hreached
    rw [hexact, hcount] at hproduct
    exact absurd hproduct (by decide)

end Draft

end GrammarArtifact
