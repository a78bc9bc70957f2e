import GrammarArtifact.Proofs.Holds

/-! Headers are decoded exactly. `Header.decode_eq_ok_iff` says that a byte string has a header
precisely when it starts with the bytes of that header; each part of the reader is treated alike:
it gives a value where the bytes of that value stand. -/

namespace GrammarArtifact

open LittleEndian

namespace Section

variable {version : UInt32} {s : Section}

/-- The sections of a version have the positions that are counted up from zero. -/
theorem map_index_ofVersion (version : UInt32) :
    (ofVersion version).map index = List.range' 0 (ofVersion version).length := by
  unfold ofVersion
  split <;> rfl

theorem index_getElem_ofVersion {i : Nat} (h : i < (ofVersion version).length) :
    ((ofVersion version)[i]).index = i := by
  have hmap := congrArg (·[i]?) (map_index_ofVersion version)
  simpa [h] using hmap

theorem getElem?_index_ofVersion : (ofVersion version)[s.index]? = some s ↔
    s.index < (ofVersion version).length := by
  constructor
  · intro h
    exact (List.getElem?_eq_some_iff.1 h).1
  · intro h
    exact List.getElem?_eq_some_iff.2 ⟨h, index_injective (index_getElem_ofVersion h)⟩

theorem mem_ofVersion_iff_index_lt : s ∈ ofVersion version ↔
    s.index < (ofVersion version).length := by
  constructor
  · intro h
    obtain ⟨i, hi, rfl⟩ := List.mem_iff_getElem.1 h
    rw [index_getElem_ofVersion hi]
    exact hi
  · intro h
    exact List.mem_of_getElem? (getElem?_index_ofVersion.2 h)

/-- Sections other than the state ids are in every version. -/
theorem mem_ofVersion_of_ne (version : UInt32) (hs : s ≠ .primaryStateIds) :
    s ∈ ofVersion version :=
  mem_ofVersion.2 fun h => absurd h hs

theorem index_lt_six : s.index < 6 ↔ s ≠ .primaryStateIds := by
  cases s <;> decide

/-- What holds of every two sections in the order of the directory. -/
theorem pairwise_ofVersion {R : Section → Section → Prop} : (ofVersion version).Pairwise R ↔
    ∀ s t, s.index < t.index → t.index < (ofVersion version).length → R s t := by
  rw [List.pairwise_iff_getElem]
  constructor
  · intro h s t hst ht
    have hs : s.index < (ofVersion version).length := Nat.lt_trans hst ht
    have hR := h s.index t.index hs ht hst
    rwa [index_injective (index_getElem_ofVersion hs),
      index_injective (index_getElem_ofVersion ht)] at hR
  · intro h i j hi hj hij
    apply h
    · rwa [index_getElem_ofVersion, index_getElem_ofVersion]
    · rwa [index_getElem_ofVersion]

end Section

namespace Counts

theorem encode_eq_append (c : Counts) : c.encode =
    word32 c.symbols ++ (word32 c.tokens ++ (word32 c.externals ++
      (word32 c.states ++ (word32 c.largeStates ++ word32 c.fields)))) := by
  simp [encode]

end Counts

namespace Header

variable {bytes : Bytes} {h : Header} {s : Section} {e : Extent}

/-! ## The directory -/

theorem map_snd_sections (h : Header) : h.sections.map Prod.snd = h.directory.1 :=
  List.map_snd_zip (Nat.le_of_eq h.length_directory)

theorem mem_sections_iff : (s, e) ∈ h.sections ↔ h.extent? s = some e := by
  simp only [sections, List.mem_iff_getElem?, List.getElem?_zip_eq_some]
  constructor
  · rintro ⟨i, hs, he⟩
    obtain ⟨hi, rfl⟩ := List.getElem?_eq_some_iff.1 hs
    rw [extent?, Section.index_getElem_ofVersion hi]
    exact he
  · intro he
    have hlt := (List.getElem?_eq_some_iff.1 he).1
    rw [h.length_directory] at hlt
    exact ⟨s.index, Section.getElem?_index_ofVersion.2 hlt, he⟩

theorem extent?_eq_none_iff : h.extent? s = none ↔ s ∉ Section.ofVersion h.version := by
  rw [extent?, List.getElem?_eq_none_iff, h.length_directory, Section.mem_ofVersion_iff_index_lt,
    Nat.not_lt]

/-! ## Parts of a header -/

theorem holds_counts {c : Counts} : bytes.Holds Layout.symbolCount c.encode ↔
    bytes.Holds Layout.symbolCount (word32 c.symbols) ∧
    bytes.Holds Layout.tokenCount (word32 c.tokens) ∧
    bytes.Holds Layout.externalCount (word32 c.externals) ∧
    bytes.Holds Layout.stateCount (word32 c.states) ∧
    bytes.Holds Layout.largeStateCount (word32 c.largeStates) ∧
    bytes.Holds Layout.fieldCount (word32 c.fields) := by
  simp only [Counts.encode_eq_append, Bytes.holds_append, length_word32, Layout.symbolCount,
    Layout.tokenCount, Layout.externalCount, Layout.stateCount, Layout.largeStateCount,
    Layout.fieldCount]

theorem decodeCounts_eq_ok {c : Counts} :
    decodeCounts bytes = .ok c ↔ bytes.Holds Layout.symbolCount c.encode := by
  simp only [holds_counts, decodeCounts, bind_eq_ok, word_eq_ok, pure_eq_ok]
  constructor
  · rintro ⟨_, hs, _, ht, _, hx, _, hq, _, hl, _, hf, rfl⟩
    exact ⟨hs, ht, hx, hq, hl, hf⟩
  · rintro ⟨hs, ht, hx, hq, hl, hf⟩
    exact ⟨_, hs, _, ht, _, hx, _, hq, _, hl, _, hf, rfl⟩

theorem holds_extent {offset : Nat} : bytes.Holds offset e.encode ↔
    bytes.Holds offset (word32 e.offset) ∧ bytes.Holds (offset + 4) (word32 e.length) := by
  rw [Extent.encode, Bytes.holds_append, length_word32]

theorem decodeExtent_eq_ok :
    decodeExtent bytes s = .ok e ↔ bytes.Holds (Layout.entryOffset s) e.encode := by
  simp only [decodeExtent, bind_eq_ok, word_eq_ok, pure_eq_ok, holds_extent]
  constructor
  · rintro ⟨_, ho, _, hl, rfl⟩
    exact ⟨ho, hl⟩
  · rintro ⟨ho, hl⟩
    exact ⟨_, ho, _, hl, rfl⟩

theorem decodeDirectory_eq_ok {sections : List Section} {d : Directory sections} :
    decodeDirectory bytes sections = .ok d ↔
      ∀ p ∈ sections.zip d.1, bytes.Holds (Layout.entryOffset p.1) p.2.encode := by
  induction sections with
  | nil =>
    obtain rfl : d = Directory.nil := Subtype.ext (List.length_eq_zero_iff.1 d.2)
    exact ⟨fun _ _ h => (nomatch h), fun _ => rfl⟩
  | cons s rest ih =>
    obtain ⟨_ | ⟨e, later⟩, hlen⟩ := d
    · nomatch hlen
    have hlater := ih (d := ⟨later, Nat.succ.inj hlen⟩)
    simp only [decodeDirectory, bind_eq_ok, pure_eq_ok, decodeExtent_eq_ok, List.zip_cons_cons,
      List.forall_mem_cons, ← hlater]
    constructor
    · rintro ⟨e', he, later', hread, heq⟩
      obtain ⟨rfl, rfl⟩ := List.cons.inj (congrArg Subtype.val heq)
      exact ⟨he, hread⟩
    · rintro ⟨he, hread⟩
      exact ⟨e, he, _, hread, rfl⟩

/-- A directory stands where each of its entries stands at the offset of its section. -/
theorem holds_directory {k : Nat} {sections : List Section} {extents : List Extent}
    (hk : sections.map Section.index = List.range' k sections.length)
    (hlen : extents.length = sections.length) :
    bytes.Holds (Layout.directory + k * Layout.entryLength) (extents.flatMap Extent.encode) ↔
      ∀ p ∈ sections.zip extents, bytes.Holds (Layout.entryOffset p.1) p.2.encode := by
  induction sections generalizing k extents with
  | nil =>
    obtain rfl := List.length_eq_zero_iff.1 hlen
    exact ⟨fun _ _ h => (nomatch h), fun _ => Bytes.holds_nil⟩
  | cons s rest ih =>
    obtain _ | ⟨e, later⟩ := extents
    · nomatch hlen
    rw [List.length_cons, List.range'_succ, List.map_cons] at hk
    obtain ⟨hs, hrest⟩ := List.cons.inj hk
    have hstart : Layout.entryOffset s = Layout.directory + k * Layout.entryLength := by
      rw [Layout.entryOffset, hs]
    have hnext : Layout.directory + k * Layout.entryLength + Layout.entryLength =
        Layout.directory + (k + 1) * Layout.entryLength := by
      rw [Nat.add_mul, Nat.one_mul, Nat.add_assoc]
    rw [List.flatMap_cons, Bytes.holds_append, Extent.length_encode, hnext,
      ih hrest (Nat.succ.inj hlen), List.zip_cons_cons, List.forall_mem_cons, hstart]

theorem decodeVersion_eq_ok {v : UInt32} :
    decodeVersion bytes = .ok v ↔ bytes.Holds 0 (Layout.magic ++ word32 v) := by
  have hmagic : bytes.take Layout.magic.length = Layout.magic ↔ bytes.Holds 0 Layout.magic := by
    rw [Bytes.holds_iff_take, List.drop_zero]
  simp only [decodeVersion, bind_eq_ok, ensure_eq_ok, exists_and_left, exists_const, word_eq_ok,
    hmagic, Bytes.holds_append, Nat.zero_add]
  constructor
  · rintro ⟨-, hm, hv⟩
    exact ⟨hm, hv⟩
  · rintro ⟨hm, hv⟩
    exact ⟨hv.le_length word32_ne_nil, hm, hv⟩

/-! ## The whole header -/

theorem encode_eq_append (h : Header) : h.encode =
    (Layout.magic ++ word32 h.version) ++ (h.counts.encode ++
      (word32 (UInt32.ofNat h.directory.1.length) ++ h.directory.1.flatMap Extent.encode)) := by
  simp [encode]

/-- A header stands at the start of a byte string when each of its parts stands at its offset. -/
theorem holds_encode : bytes.Holds 0 h.encode ↔
    bytes.Holds 0 (Layout.magic ++ word32 h.version) ∧
    bytes.Holds Layout.symbolCount h.counts.encode ∧
    bytes.Holds Layout.sectionCount (word32 (UInt32.ofNat h.directory.1.length)) ∧
    bytes.Holds Layout.directory (h.directory.1.flatMap Extent.encode) := by
  have htag : 0 + (Layout.magic ++ word32 h.version).length = Layout.symbolCount := by
    simp [Layout.length_magic, Layout.version, Layout.symbolCount]
  have hcounts : Layout.symbolCount + h.counts.encode.length = Layout.sectionCount := by
    simp [Layout.symbolCount, Layout.sectionCount]
  rw [encode_eq_append, @Bytes.holds_append _ (Layout.magic ++ word32 h.version), htag,
    @Bytes.holds_append _ h.counts.encode, hcounts, @Bytes.holds_append _ (word32 _),
    length_word32]
  rfl

theorem encode_ne_nil (h : Header) : h.encode ≠ [] := by
  rw [encode_eq_append]
  exact List.append_ne_nil_of_left_ne_nil (List.append_ne_nil_of_left_ne_nil (by decide) _) _

theorem length_directory_lt (h : Header) : h.directory.1.length < 4294967296 := by
  rw [h.length_directory, Section.length_ofVersion]
  split <;> decide

/-- A byte string has a header exactly when it starts with the bytes of that header. -/
theorem decode_eq_ok_iff : decode bytes = .ok h ↔ h.encode <+: bytes := by
  obtain ⟨version, counts, directory⟩ := h
  have hcount : (UInt32.ofNat directory.1.length).toNat = directory.1.length :=
    UInt32.toNat_ofNat_of_lt' (length_directory_lt ⟨version, counts, directory⟩)
  have hdirectory : decodeDirectory bytes (Section.ofVersion version) = .ok directory ↔
      bytes.Holds Layout.directory (directory.1.flatMap Extent.encode) :=
    decodeDirectory_eq_ok.trans
      (holds_directory (Section.map_index_ofVersion version) directory.2).symm
  simp only [decode, bind_eq_ok, ensure_eq_ok, exists_and_left, exists_const, pure_eq_ok,
    decodeVersion_eq_ok, word_eq_ok, decodeCounts_eq_ok]
  constructor
  · rintro ⟨v, hv, -, n, hn, hlen, -, d, hd, c, hc, heq⟩
    cases heq
    have hword : UInt32.ofNat directory.1.length = n := by
      rw [← UInt32.toNat_inj, hcount, hlen, directory.2]
    exact holds_encode.2 ⟨hv, hc, hword ▸ hn, hdirectory.1 hd⟩
  · intro hpre
    obtain ⟨hv, hc, hn, hd⟩ := holds_encode.1 hpre
    have hfixed := hn.le_length word32_ne_nil
    have hneeded := hpre.length_le
    rw [length_encode, payloadOffset, directory.2] at hneeded
    refine ⟨version, hv, hfixed, _, hn, ?_, hneeded, directory, hdirectory.2 hd, counts, hc, rfl⟩
    rw [hcount, directory.2]

/-- Decoding gives back a header that was written, whatever follows it. -/
theorem decode_encode (h : Header) (rest : Bytes) : decode (h.encode ++ rest) = .ok h :=
  decode_eq_ok_iff.2 (List.prefix_append _ _)

/-- The version that is read first is the one of the header. -/
theorem decodeVersion_of_encode (hpre : h.encode <+: bytes) : decodeVersion bytes = .ok h.version :=
  decodeVersion_eq_ok.2 (holds_encode.1 hpre).1

end Header

end GrammarArtifact
