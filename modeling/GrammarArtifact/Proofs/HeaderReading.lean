import GrammarArtifact.Proofs.Stages

/-! Headers are read without loss. A byte string that has no header is refused with the first
condition that it does not meet (`Format.decode_eq_error`). From the header of one that has, the
bytes in front of the payload can be written again, each word at its place
(`Format.Lossless.written`); nothing behind these bytes plays a part in reading them. -/

namespace GrammarArtifact

namespace Format

open LittleEndian

variable {bytes : Bytes} {h : Header} {e : HeaderError}

/-! ## Byte strings without a header -/

/-- The first condition that a byte string would have to meet to have a header, and does not. -/
inductive HeaderFault (bytes : Bytes) : HeaderError → Prop
  | short : bytes.length < 12 → HeaderFault bytes (.truncated 12 bytes.length)
  | foreign : 12 ≤ bytes.length → ¬Bytes.ofText "TSLANGv1" <+: bytes → HeaderFault bytes .badMagic
  | wordsCut : Tagged bytes → bytes.length < 40 → HeaderFault bytes (.truncated 40 bytes.length)
  | miscounted : Tagged bytes → 40 ≤ bytes.length → word bytes 36 ≠ sectionCount bytes →
    HeaderFault bytes
      (.sectionCount (tag bytes) (sectionCount bytes) (UInt32.ofNat (word bytes 36)))
  | directoryCut : Tagged bytes → 40 ≤ bytes.length → word bytes 36 = sectionCount bytes →
    bytes.length < 40 + 8 * sectionCount bytes →
    HeaderFault bytes (.truncated (40 + 8 * sectionCount bytes) bytes.length)

theorem checkTag_eq_error (h : checkTag bytes = .error e) : HeaderFault bytes e := by
  rcases bind_eq_error.1 h with h | ⟨_, hlength, h⟩
  · obtain ⟨hshort, rfl⟩ := ensure_eq_error.1 h
    exact .short (Nat.lt_of_not_le hshort)
  · obtain ⟨hmagic, rfl⟩ := ensure_eq_error.1 h
    exact .foreign (ensure_eq_ok.1 hlength) hmagic

theorem checkFrame_eq_error (htagged : Tagged bytes) (h : checkFrame bytes = .error e) :
    HeaderFault bytes e := by
  rcases bind_eq_error.1 h with h | ⟨_, hfixed, h⟩
  · obtain ⟨hcut, rfl⟩ := ensure_eq_error.1 h
    exact .wordsCut htagged (Nat.lt_of_not_le hcut)
  have hfixed := ensure_eq_ok.1 hfixed
  rcases bind_eq_error.1 h with h | ⟨_, hdeclared, h⟩
  · obtain ⟨hcount, rfl⟩ := ensure_eq_error.1 h
    exact .miscounted htagged hfixed hcount
  · obtain ⟨hcut, rfl⟩ := ensure_eq_error.1 h
    exact .directoryCut htagged hfixed (ensure_eq_ok.1 hdeclared) (Nat.lt_of_not_le hcut)

/-- The conditions are looked at in turn, and the first that fails is what is reported. -/
theorem decode_eq_error : Header.decode bytes = .error e ↔ HeaderFault bytes e := by
  rw [decode_eq]
  constructor
  · intro h
    rcases bind_eq_error.1 h with h | ⟨_, htag, h⟩
    · exact checkTag_eq_error h
    rcases bind_eq_error.1 h with h | ⟨_, _, h⟩
    · exact checkFrame_eq_error (checkTag_eq_ok.1 htag) h
    · nomatch h
  · intro h
    cases h with
    | short hshort =>
      rw [checkTag, ensure_of_neg (Nat.not_le.2 hshort)]
      rfl
    | foreign hlength hmagic =>
      rw [checkTag, ensure_of_pos hlength, ensure_of_neg hmagic]
      rfl
    | wordsCut htagged hcut =>
      rw [(checkTag_eq_ok (u := ())).2 htagged, checkFrame, ensure_of_neg (Nat.not_le.2 hcut)]
      rfl
    | miscounted htagged hfixed hcount =>
      rw [(checkTag_eq_ok (u := ())).2 htagged, checkFrame, ensure_of_pos hfixed,
        ensure_of_neg hcount]
      rfl
    | directoryCut htagged hfixed hdeclared hcut =>
      rw [(checkTag_eq_ok (u := ())).2 htagged, checkFrame, ensure_of_pos hfixed,
        ensure_of_pos hdeclared, ensure_of_neg (Nat.not_le.2 hcut)]
      rfl

theorem HeaderFault.truncated {needed found : Nat}
    (h : HeaderFault bytes (.truncated needed found)) :
    needed ∈ [12, 40, 40 + 8 * sectionCount bytes] ∧ found = bytes.length ∧ found < needed := by
  cases h with
  | short hshort => exact ⟨by simp, rfl, hshort⟩
  | wordsCut _ hcut => exact ⟨by simp, rfl, hcut⟩
  | directoryCut _ _ _ hcut => exact ⟨by simp, rfl, hcut⟩

/-! ## Byte strings with a header -/

theorem exists_decode_eq_ok : (∃ h, Header.decode bytes = .ok h) ↔
    12 ≤ bytes.length ∧ Bytes.ofText "TSLANGv1" <+: bytes ∧ 40 ≤ bytes.length ∧
      word bytes 36 = sectionCount bytes ∧ 40 + 8 * sectionCount bytes ≤ bytes.length := by
  simp only [decode_eq_ok]
  constructor
  · intro ⟨_, ⟨hmagic, hdeclared, hfits⟩, _⟩
    exact ⟨by omega, hmagic, by omega, hdeclared, hfits⟩
  · intro ⟨_, hmagic, _, hdeclared, hfits⟩
    exact ⟨_, ⟨hmagic, hdeclared, hfits⟩, rfl⟩

/-- What a header keeps of the byte string that it was read from: everything in front of the
payload, and nothing else. -/
structure Lossless (bytes : Bytes) (h : Header) : Prop where
  written : Bytes.ofText "TSLANGv1" ++
    ([h.version, h.counts.symbols, h.counts.tokens, h.counts.externals, h.counts.states,
      h.counts.largeStates, h.counts.fields, UInt32.ofNat h.sections.length].flatMap word32 ++
    h.sections.flatMap fun p => word32 p.2.offset ++ word32 p.2.length) =
      bytes.take h.payloadOffset
  payloadOffset : h.payloadOffset = 40 + 8 * h.sections.length
  payloadOffset_le : h.payloadOffset ≤ bytes.length
  /-- The sections of the version, in the order of the directory. -/
  sections : h.sections.map Prod.fst = Section.ofVersion h.version
  positions : h.sections.map (·.1.index) = List.range (sectionCount bytes)
  entries : ∀ p ∈ h.sections, p.2.offset.toNat = word bytes (40 + 8 * p.1.index) ∧
    p.2.length.toNat = word bytes (44 + 8 * p.1.index)
  /-- Whatever follows the header, the same header is read. -/
  continued : ∀ rest, Header.decode (bytes.take h.payloadOffset ++ rest) = .ok h
  version : Header.decodeVersion bytes = .ok h.version

theorem length_sections (h : Header) : h.sections.length = h.directory.1.length := by
  rw [← Header.map_snd_sections, List.length_map]

theorem written_eq_encode (h : Header) : Bytes.ofText "TSLANGv1" ++
    ([h.version, h.counts.symbols, h.counts.tokens, h.counts.externals, h.counts.states,
      h.counts.largeStates, h.counts.fields, UInt32.ofNat h.sections.length].flatMap word32 ++
    h.sections.flatMap fun p => word32 p.2.offset ++ word32 p.2.length) = h.encode := by
  have hentries : (h.sections.flatMap fun p => word32 p.2.offset ++ word32 p.2.length) =
      h.directory.1.flatMap Extent.encode := by
    rw [← Header.map_snd_sections, List.flatMap_map]
    rfl
  rw [hentries, length_sections, magic_eq, Header.encode_eq_append, Counts.encode]
  simp only [List.flatMap_cons, List.flatMap_nil, List.append_nil, List.append_assoc]

theorem lossless_of_decode (hdecode : Header.decode bytes = .ok h) : Lossless bytes h := by
  have hpre := Header.decode_eq_ok_iff.1 hdecode
  obtain ⟨hframed, rfl⟩ := decode_eq_ok.1 hdecode
  have htake : (header bytes).encode = bytes.take (header bytes).payloadOffset := by
    rw [← Header.length_encode]
    exact List.prefix_iff_eq_take.1 hpre
  have hlength : (header bytes).sections.length = sectionCount bytes := by
    rw [length_sections, length_directory_header]
  exact {
    written := (written_eq_encode _).trans htake
    payloadOffset := by rw [hlength, payloadOffset_header]
    payloadOffset_le := by
      rw [payloadOffset_header]
      exact hframed.fits
    sections := Header.map_fst_sections _
    positions := by
      have hindex := Section.map_index_ofVersion (header bytes).version
      rw [← Header.map_fst_sections, List.map_map, List.length_map, hlength] at hindex
      rw [List.range_eq_range']
      exact hindex
    entries := fun p hp => by
      rw [sections_header] at hp
      obtain ⟨s, _, rfl⟩ := List.mem_map.1 hp
      exact ⟨toNat_ofNat_word _ _, toNat_ofNat_word _ _⟩
    continued := fun rest => by
      rw [← htake]
      exact Header.decode_encode _ rest
    version := Header.decodeVersion_of_encode hpre }

/-- Reading a header is decided by five conditions, the first failure of which is the error. A
header that is read tells every byte in front of the payload. -/
theorem headerExact (bytes : Bytes) :
    ((∃ h, Header.decode bytes = .ok h) ↔
      12 ≤ bytes.length ∧ Bytes.ofText "TSLANGv1" <+: bytes ∧ 40 ≤ bytes.length ∧
        word bytes 36 = sectionCount bytes ∧ 40 + 8 * sectionCount bytes ≤ bytes.length) ∧
    (∀ e, Header.decode bytes = .error e ↔ HeaderFault bytes e) ∧
    (∀ needed found, Header.decode bytes = .error (.truncated needed found) →
      needed ∈ [12, 40, 40 + 8 * sectionCount bytes] ∧ found = bytes.length ∧ found < needed) ∧
    ∀ h, Header.decode bytes = .ok h → Lossless bytes h :=
  ⟨exists_decode_eq_ok, fun _ => decode_eq_error,
    fun _ _ h => (decode_eq_error.1 h).truncated, fun _ => lossless_of_decode⟩

/-- A header of six sections in which no two words are equal. No loader would accept its extents. -/
def distinct : Header where
  version := 13
  counts := {
    symbols := 101, tokens := 102, externals := 103, states := 104, largeStates := 105,
    fields := 106 }
  directory := ⟨[⟨201, 202⟩, ⟨203, 204⟩, ⟨205, 206⟩, ⟨207, 208⟩, ⟨209, 210⟩, ⟨211, 212⟩], rfl⟩

/-- The header is read where a payload follows it, and missed where its last byte is. -/
theorem headerExact_distinct : Lossless (distinct.encode ++ [7]) distinct ∧
    Header.decode (distinct.encode.take 87) = .error (.truncated 88 87) := by
  refine ⟨(headerExact _).2.2.2 _ (distinct.decode_encode [7]), ((headerExact _).2.1 _).2 ?_⟩
  exact .directoryCut ⟨by decide, by decide⟩ (by decide) (by decide) (by decide)

end Format

end GrammarArtifact
