import GrammarArtifact.Proofs.HeaderDecoding
import GrammarArtifact.VersionRange

/-! The artifact format, stated apart from the reader. Everything here is said of the bytes
themselves: what number stands at an offset, which bytes belong to a section, and when a byte string
is a well-formed artifact. The lemmas below the definitions tie headers to these numbers. -/

namespace GrammarArtifact

namespace Format

section

variable (bytes : Bytes)

/-- The number in the four bytes at an offset, the lowest byte first. -/
def word (offset : Nat) : Nat := LittleEndian.decode ((bytes.drop offset).take 4)

def version : Nat := word bytes 8

def symbols : Nat := word bytes 12

def tokens : Nat := word bytes 16

def externals : Nat := word bytes 20

def states : Nat := word bytes 24

def largeStates : Nat := word bytes 28

def fields : Nat := word bytes 32

/-- The number of sections of the version. -/
def sectionCount : Nat := if version bytes < 14 then 6 else 7

/-- What follows the directory. -/
def payload : Bytes := bytes.drop (40 + 8 * sectionCount bytes)

/-- Where a section starts in the payload. -/
def start (s : Section) : Nat := word bytes (40 + 8 * s.index)

def size (s : Section) : Nat := word bytes (44 + 8 * s.index)

/-- The bytes of a section. -/
def contents (s : Section) : Bytes := ((payload bytes).drop (start bytes s)).take (size bytes s)

end

/-- A byte string consists of so many strings without zero bytes, each followed by a zero byte. -/
def IsStringTable (count : Nat) (data : Bytes) : Prop :=
  ∃ strings : List Bytes, strings.length = count ∧ (∀ s ∈ strings, 0 ∉ s) ∧
    strings.flatMap (fun s => s ++ [0]) = data

/-- The header that a byte string declares is all there. -/
structure Framed (bytes : Bytes) : Prop where
  magic : Bytes.ofText "TSLANGv1" <+: bytes
  declared : word bytes 36 = sectionCount bytes
  fits : 40 + 8 * sectionCount bytes ≤ bytes.length

/-- A well-formed artifact of one of the versions of a range. -/
structure WellFormed (range : VersionRange) (bytes : Bytes) : Prop extends Framed bytes where
  inRange : range.min.toNat ≤ version bytes ∧ version bytes ≤ range.max.toNat
  inside : ∀ s : Section, s.index < sectionCount bytes →
    start bytes s + size bytes s ≤ (payload bytes).length
  ordered : ∀ s t : Section, s.index < t.index → t.index < sectionCount bytes →
    start bytes s + size bytes s ≤ start bytes t
  tokensBounded : tokens bytes ≤ symbols bytes
  externalsBounded : externals bytes ≤ tokens bytes
  largeStatesBounded : largeStates bytes ≤ states bytes
  statesBounded : states bytes ≤ 65536
  name : ∃ name, name ≠ "" ∧ Bytes.ofText name = contents bytes .name
  symbolNames : IsStringTable (symbols bytes) (contents bytes .symbolNames)
  symbolMetadata : (contents bytes .symbolMetadata).length = symbols bytes
  fieldNames : IsStringTable (fields bytes) (contents bytes .fieldNames)
  parseTable : (contents bytes .parseTable).length = 2 * largeStates bytes * symbols bytes
  lexModes : (contents bytes .lexModes).length = 4 * states bytes
  primaryStateIds : 14 ≤ version bytes →
    (contents bytes .primaryStateIds).length = 2 * states bytes

/-! ## Words -/

variable {bytes : Bytes} {h : Header}

theorem word_lt (bytes : Bytes) (offset : Nat) : word bytes offset < 4294967296 := by
  have hlt := LittleEndian.decode_lt ((bytes.drop offset).take 4)
  have hle : ((bytes.drop offset).take 4).length ≤ 4 := List.length_take_le _ _
  exact Nat.lt_of_lt_of_le hlt (Nat.pow_le_pow_right (by decide) hle)

theorem toNat_ofNat_word (bytes : Bytes) (offset : Nat) :
    (UInt32.ofNat (word bytes offset)).toNat = word bytes offset :=
  UInt32.toNat_ofNat_of_lt' (word_lt bytes offset)

theorem word_of_holds {offset : Nat} {n : UInt32}
    (h : bytes.Holds offset (LittleEndian.word32 n)) : word bytes offset = n.toNat := by
  have htake := Bytes.holds_iff_take.1 h
  rw [LittleEndian.length_word32] at htake
  rw [word, htake, LittleEndian.decode_word32]

/-- Where four bytes are left stands the word that they denote. -/
theorem holds_word {offset : Nat} (h : offset + 4 ≤ bytes.length) :
    bytes.Holds offset (LittleEndian.word32 (UInt32.ofNat (word bytes offset))) := by
  obtain ⟨n, hn⟩ := Header.exists_word_eq_ok h
  have hn := Header.word_eq_ok.1 hn
  rwa [word_of_holds hn, UInt32.ofNat_toNat]

theorem magic_eq : Bytes.ofText "TSLANGv1" = Layout.magic := by decide

/-! ## The header -/

/-- The extent that the directory gives to a section. -/
def extent (bytes : Bytes) (s : Section) : Extent where
  offset := UInt32.ofNat (start bytes s)
  length := UInt32.ofNat (size bytes s)

/-- The header that the words of a byte string describe. -/
def header (bytes : Bytes) : Header where
  version := UInt32.ofNat (version bytes)
  counts := {
    symbols := UInt32.ofNat (symbols bytes)
    tokens := UInt32.ofNat (tokens bytes)
    externals := UInt32.ofNat (externals bytes)
    states := UInt32.ofNat (states bytes)
    largeStates := UInt32.ofNat (largeStates bytes)
    fields := UInt32.ofNat (fields bytes) }
  directory := ⟨(Section.ofVersion (UInt32.ofNat (version bytes))).map (extent bytes),
    List.length_map _⟩

theorem length_ofVersion (bytes : Bytes) :
    (Section.ofVersion (UInt32.ofNat (version bytes))).length = sectionCount bytes := by
  have hlt : UInt32.ofNat (version bytes) < Section.stateIdsSince ↔ version bytes < 14 := by
    rw [UInt32.lt_iff_toNat_lt, version, toNat_ofNat_word]
    rfl
  rw [Section.length_ofVersion, sectionCount]
  simp only [hlt]

theorem sections_header (bytes : Bytes) : (header bytes).sections =
    (Section.ofVersion (UInt32.ofNat (version bytes))).map fun s => (s, extent bytes s) := by
  have hzip := @List.zip_map' _ _ _ id (extent bytes)
    (Section.ofVersion (UInt32.ofNat (version bytes)))
  rwa [List.map_id] at hzip

theorem length_directory_header (bytes : Bytes) :
    (header bytes).directory.1.length = sectionCount bytes :=
  (List.length_map _).trans (length_ofVersion bytes)

theorem payloadOffset_header (bytes : Bytes) :
    (header bytes).payloadOffset = 40 + 8 * sectionCount bytes := by
  rw [Header.payloadOffset, length_directory_header, Nat.mul_comm]
  rfl

/-- A byte string that is framed starts with the header that its words describe. -/
theorem Framed.encode_prefix (h : Framed bytes) : (header bytes).encode <+: bytes := by
  have hfits := h.fits
  have hword : ∀ {offset : Nat}, offset + 4 ≤ 40 → bytes.Holds offset
      (LittleEndian.word32 (UInt32.ofNat (word bytes offset))) :=
    fun hle => holds_word (by omega)
  rw [← Bytes.holds_zero, Header.holds_encode, Bytes.holds_append, Header.holds_counts]
  refine ⟨⟨magic_eq ▸ h.magic, hword (by decide)⟩, ⟨hword (by decide), hword (by decide),
    hword (by decide), hword (by decide), hword (by decide), hword (by decide)⟩, ?_, ?_⟩
  · rw [length_directory_header, ← h.declared]
    exact hword (by decide)
  · refine (Header.holds_directory (Section.map_index_ofVersion _) (header bytes).directory.2).2 ?_
    intro p hp
    rw [show List.zip _ _ = _ from sections_header bytes] at hp
    obtain ⟨s, hs, rfl⟩ := List.mem_map.1 hp
    rw [Section.mem_ofVersion_iff_index_lt, length_ofVersion] at hs
    have hoffset : Layout.entryOffset s = 40 + 8 * s.index := by
      rw [Nat.mul_comm]
      rfl
    have hlength : Layout.entryOffset s + 4 = 44 + 8 * s.index := by omega
    rw [Header.holds_extent, hlength, hoffset]
    exact ⟨holds_word (by omega), holds_word (by omega)⟩

/-- Only a framed byte string has a header, and its words describe it. -/
theorem decode_eq_ok : Header.decode bytes = .ok h ↔ Framed bytes ∧ h = header bytes := by
  constructor
  · intro hdecode
    have hpre := Header.decode_eq_ok_iff.1 hdecode
    obtain ⟨htag, -, hcount, -⟩ := Header.holds_encode.1 (Bytes.holds_zero.2 hpre)
    obtain ⟨hmagic, hversion⟩ := Bytes.holds_append.1 htag
    have hver : UInt32.ofNat (version bytes) = h.version := by
      rw [version, show word bytes 8 = _ from word_of_holds hversion, UInt32.ofNat_toNat]
    have hlen : h.directory.1.length = sectionCount bytes := by
      rw [h.length_directory, ← hver, length_ofVersion]
    have hframed : Framed bytes := by
      refine ⟨magic_eq ▸ hmagic, ?_, ?_⟩
      · rw [show word bytes 36 = _ from word_of_holds hcount,
          UInt32.toNat_ofNat_of_lt' h.length_directory_lt, hlen]
      · have hle := hpre.length_le
        rw [h.length_encode, Header.payloadOffset, hlen, Layout.headerLength, Nat.mul_comm] at hle
        exact hle
    refine ⟨hframed, Except.ok.inj (ε := HeaderError) ?_⟩
    rw [← hdecode, Header.decode_eq_ok_iff.2 hframed.encode_prefix]
  · rintro ⟨hframed, rfl⟩
    exact Header.decode_eq_ok_iff.2 hframed.encode_prefix

end Format

end GrammarArtifact
