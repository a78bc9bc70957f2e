import GrammarArtifact.Proofs.Acceptance
import GrammarArtifact.Proofs.HeaderWords
import GrammarArtifact.Proofs.RoundTrip
import GrammarArtifact.Proofs.Slices
import GrammarArtifact.Proofs.Stages

/-! Which bytes of an artifact a load depends on. The header and the directory decide which checks
are made (`Format.header_congr`); of the payload only the sections that hold texts are read, and
they are read only where no other section lies (`Header.check_congr`). -/

namespace GrammarArtifact

namespace Integrity

variable {c : Counts} {payload payload' data data' : Bytes} {s : Section}

/-- The sections that are read. All others only have to be of the right length. -/
def texts : List Section := [.name, .symbolNames, .fieldNames]

theorem checkContent_congr (hs : s ∉ texts) (hlength : data.length = data'.length) :
    checkContent c s data = checkContent c s data' := by
  cases s with
  | name | symbolNames | fieldNames => exact absurd hs (by decide)
  | symbolMetadata | parseTable | lexModes | primaryStateIds =>
    simp only [checkContent, checkLength, hlength]

/-- A section whose contents can be sliced in one payload can be sliced in the other, and they
pass the same check. -/
theorem exists_checkContent_eq {e : Extent} (hlength : payload.length = payload'.length)
    (hs : s ∈ texts → e.slice? payload = e.slice? payload')
    (hslice : e.slice? payload = some data) :
    ∃ data', e.slice? payload' = some data' ∧
      checkContent c s data = checkContent c s data' := by
  by_cases htext : s ∈ texts
  · exact ⟨data, (hs htext).symm.trans hslice, rfl⟩
  · obtain ⟨data', hslice'⟩ : ∃ data', e.slice? payload' = some data' := by
      rw [← Option.isSome_iff_exists, Extent.slice?, Bytes.isSome_slice?, ← hlength]
      exact (Bytes.slice?_eq_some_iff.1 hslice).1
    refine ⟨data', hslice', checkContent_congr htext ?_⟩
    rw [Bytes.length_of_slice? hslice, Bytes.length_of_slice? hslice']

theorem checkContents_congr (hlength : payload.length = payload'.length) {name : Option String}
    {sections : List (Section × Extent)}
    (h : ∀ p ∈ sections, p.1 ∈ texts → p.2.slice? payload = p.2.slice? payload') :
    checkContents c payload name sections = checkContents c payload' name sections := by
  induction sections generalizing name with
  | nil => rfl
  | cons p rest ih =>
    obtain ⟨s, e⟩ := p
    obtain ⟨hs, hrest⟩ := List.forall_mem_cons.1 h
    rw [checkContents, checkContents]
    cases hslice : e.slice? payload with
    -- Whether a section dangles depends on the length of the payload only.
    | none =>
      have hslice' : e.slice? payload' = none := by
        rw [Extent.slice?, Bytes.slice?_eq_none_iff, ← hlength]
        exact Bytes.slice?_eq_none_iff.1 hslice
      rw [hslice', hlength]
    | some data =>
      obtain ⟨data', hslice', hcontent⟩ := exists_checkContent_eq (c := c) hlength hs hslice
      rw [hslice']
      show (checkContent c s data >>= _) = (checkContent c s data' >>= _)
      rw [hcontent]
      exact bind_congr fun found => ih hrest

end Integrity

namespace Header

variable {h h' : Header} {a b : Bytes}

theorem eq_of_parts (hversion : h.version = h'.version) (hcounts : h.counts = h'.counts)
    (hdirectory : h.directory.1 = h'.directory.1) : h = h' := by
  obtain ⟨version, counts, extents, hlength⟩ := h
  obtain ⟨version', counts', extents', hlength'⟩ := h'
  cases hversion
  cases hcounts
  cases hdirectory
  rfl

/-- Contents are looked at only when the layout is right, and then only those of texts. -/
theorem check_congr (hlength : (h.payload a).length = (h.payload b).length)
    (hslice : Integrity.Laid (h.payload a).length h.sections → ∀ p ∈ h.sections,
      p.1 ∈ Integrity.texts → p.2.slice? (h.payload a) = p.2.slice? (h.payload b)) :
    h.check a = h.check b := by
  rw [check, check, hlength]
  refine bind_congr_ok fun _ hlayout => bind_congr fun _ => ?_
  have hlaid := (Integrity.checkLayout_eq_ok.1 hlayout).1
  rw [Integrity.checkContents_congr hlength (hslice (hlength ▸ hlaid))]

end Header

namespace Format

open Integrity

variable {a b bytes : Bytes} {i : Nat}

/-! ## Positions -/

/-- The directory puts a position of the artifact into a section. -/
def Covers (bytes : Bytes) (s : Section) (i : Nat) : Prop :=
  s.index < sectionCount bytes ∧ 40 + 8 * sectionCount bytes + start bytes s ≤ i ∧
    i < 40 + 8 * sectionCount bytes + (start bytes s + size bytes s)

/-- The positions of the header, of the directory and of the texts. -/
def Inspected (bytes : Bytes) (i : Nat) : Prop :=
  i < 40 + 8 * sectionCount bytes ∨ ∃ s ∈ texts, Covers bytes s i

/-- The positions behind the directory that belong to another section or to none. -/
def Unread (bytes : Bytes) (i : Nat) : Prop :=
  40 + 8 * sectionCount bytes ≤ i ∧
    ((∃ s, s ∉ texts ∧ Covers bytes s i) ∨ ∀ s, ¬Covers bytes s i)

instance (s : Section) : Decidable (Covers bytes s i) := inferInstanceAs (Decidable (_ ∧ _))

instance : Decidable (Inspected bytes i) := inferInstanceAs (Decidable (_ ∨ _))

theorem inspected_of_not_unread (hi : ¬Unread bytes i) : Inspected bytes i := by
  by_cases hheader : i < 40 + 8 * sectionCount bytes
  · exact .inl hheader
  have hpayload := Nat.le_of_not_lt hheader
  obtain ⟨s, hs⟩ : ∃ s, Covers bytes s i :=
    Classical.byContradiction fun hnone => hi ⟨hpayload, .inr fun s hs => hnone ⟨s, hs⟩⟩
  have htext : s ∈ texts :=
    Classical.byContradiction fun hother => hi ⟨hpayload, .inl ⟨s, hother, hs⟩⟩
  exact .inr ⟨s, htext, hs⟩

/-! ## Headers -/

section

variable (hhead : Bytes.Agree a b 0 (40 + 8 * sectionCount a))
include hhead

theorem word_eq {offset : Nat} (hle : offset + 4 ≤ 40 + 8 * sectionCount a) :
    word a offset = word b offset :=
  word_congr (hhead.mono (Nat.zero_le _) hle)

theorem sectionCount_congr : sectionCount a = sectionCount b := by
  have hversion := word_eq hhead (show 8 + 4 ≤ 40 + 8 * sectionCount a by omega)
  rw [sectionCount, sectionCount, version, version, hversion]

theorem header_congr : header a = header b := by
  have hword : ∀ {offset : Nat}, offset + 4 ≤ 40 → word a offset = word b offset :=
    fun hle => word_eq hhead (by omega)
  have hversion : version a = version b := hword (by decide)
  refine Header.eq_of_parts (congrArg UInt32.ofNat hversion) ?_ ?_
  · simp only [header, symbols, tokens, externals, states, largeStates, fields,
      hword (show 12 + 4 ≤ 40 by decide), hword (show 16 + 4 ≤ 40 by decide),
      hword (show 20 + 4 ≤ 40 by decide), hword (show 24 + 4 ≤ 40 by decide),
      hword (show 28 + 4 ≤ 40 by decide), hword (show 32 + 4 ≤ 40 by decide)]
  · show (Section.ofVersion (UInt32.ofNat (version a))).map (extent a) =
      (Section.ofVersion (UInt32.ofNat (version b))).map (extent b)
    rw [← hversion]
    refine List.map_congr_left fun s hs => ?_
    rw [Section.mem_ofVersion_iff_index_lt, length_ofVersion] at hs
    rw [extent, extent, start, start, size, size, word_eq hhead (by omega),
      word_eq hhead (by omega)]

theorem checkTag_congr (hlength : a.length = b.length) : checkTag a = checkTag b := by
  have hmagic : Bytes.ofText "TSLANGv1" <+: a ↔ Bytes.ofText "TSLANGv1" <+: b := by
    have hle : 0 + 8 ≤ 40 + 8 * sectionCount a := by omega
    have htake := (hhead.mono (Nat.zero_le 0) hle).take_drop
    rw [List.prefix_iff_eq_take, List.prefix_iff_eq_take]
    exact iff_of_eq (congrArg _ htake)
  rw [checkTag, checkTag, hlength, ensure_congr hmagic]

theorem checkFrame_congr (hlength : a.length = b.length) : checkFrame a = checkFrame b := by
  rw [checkFrame, checkFrame, hlength, sectionCount_congr hhead, tag, tag, header_congr hhead,
    word_eq hhead (show 36 + 4 ≤ 40 + 8 * sectionCount a by omega)]

end

/-! ## Contents -/

/-- Where the layout is right, no other section lies in the range of a text. -/
theorem not_unread_of_covers {limit : Nat} (hlaid : Laid limit (header bytes).sections)
    {s : Section} (hs : s ∈ texts) (hcovers : Covers bytes s i) : ¬Unread bytes i := by
  obtain ⟨-, hordered⟩ := laid_header.1 hlaid
  rintro ⟨-, ⟨t, ht, hcovers'⟩ | hnone⟩
  -- The other section comes before or after the text, so it has no position in common with it.
  · obtain ⟨hslt, hfirst, hlast⟩ := hcovers
    obtain ⟨htlt, hfirst', hlast'⟩ := hcovers'
    have hne : s.index ≠ t.index := fun heq => ht (Section.index_injective heq ▸ hs)
    rcases Nat.lt_or_gt_of_ne hne with hlt | hgt
    · have hle := hordered s t hlt htlt
      omega
    · have hle := hordered t s hgt hslt
      omega
  · exact hnone s hcovers

theorem check_congr (hlength : a.length = b.length)
    (h : ∀ i, ¬Unread a i → a[i]? = b[i]?) : (header a).check a = (header a).check b := by
  refine Header.check_congr ?_ fun hlaid p hp htext => ?_
  · rw [Header.length_payload, Header.length_payload, hlength]
  rw [sections_header] at hp
  obtain ⟨s, hs, rfl⟩ := List.mem_map.1 hp
  rw [Section.mem_ofVersion_iff_index_lt, length_ofVersion] at hs
  have hagree : Bytes.Agree a b (40 + 8 * sectionCount a + start a s)
      (40 + 8 * sectionCount a + (start a s + size a s)) :=
    fun i hfirst hlast => h i (not_unread_of_covers hlaid htext ⟨hs, hfirst, hlast⟩)
  rw [← payloadOffset_header, ← stop_extent, ← offset_extent] at hagree
  refine Bytes.slice?_congr ?_ ?_
  · rw [Header.length_payload, Header.length_payload, hlength]
  · rw [Header.payload_eq_drop, Header.payload_eq_drop]
    exact hagree.drop

end Format

namespace Loader

open Format

variable {a b : Region}

/-- What a load tells about an artifact: the name, the version and the counts, or the error. -/
def outcome (loader : Loader) (artifact : Region) : Except LoadError (String × UInt32 × Counts) :=
  (loader.load (some artifact)).map fun l => (l.name, l.version, l.counts)

theorem outcome_congr (loader : Loader) (hlength : a.bytes.length = b.bytes.length)
    (h : ∀ i, ¬Unread a.bytes i → a.bytes[i]? = b.bytes[i]?) :
    loader.outcome a = loader.outcome b := by
  have hhead : Bytes.Agree a.bytes b.bytes 0 (40 + 8 * sectionCount a.bytes) :=
    fun i _ hi => h i fun hunread => absurd hi (Nat.not_lt.2 hunread.1)
  have hnil : a.bytes ≠ [] ↔ b.bytes ≠ [] := by
    rw [← List.length_pos_iff, ← List.length_pos_iff, hlength]
  have htag : tag a.bytes = tag b.bytes := by rw [tag, tag, header_congr hhead]
  rw [outcome, outcome, load_eq, load_eq, ensure_congr hnil, checkTag_congr hhead hlength, htag]
  simp only [examine, map_bind_except]
  rw [checkFrame_congr hhead hlength, ← header_congr hhead, check_congr hlength h]
  rfl

/-- A load depends on the header, the directory and the texts only. Bytes that belong to another
section or to none change nothing, even where the directory lets sections overlap. -/
theorem load_indistinguishable (loader : Loader) (hlength : a.bytes.length = b.bytes.length) :
    ((∀ i, Inspected a.bytes i → a.bytes[i]? = b.bytes[i]?) →
      loader.outcome a = loader.outcome b) ∧
    ((∀ i, ¬Unread a.bytes i → a.bytes[i]? = b.bytes[i]?) →
      loader.outcome a = loader.outcome b) :=
  ⟨fun h => outcome_congr loader hlength fun i hi => h i (inspected_of_not_unread hi),
    outcome_congr loader hlength⟩

set_option maxRecDepth 4000 in
/-- A flag of a symbol and a byte behind the last section can be replaced. -/
theorem load_indistinguishable_straight : ∃ bytes, Draft.straight.encode = .ok bytes ∧
    (default : Loader).outcome (.whole 0 (bytes ++ [9])) =
      .ok ("straight", 14, Draft.straight.counts) ∧
    (default : Loader).outcome (.whole 1 (bytes.set 114 200 ++ [1])) =
      .ok ("straight", 14, Draft.straight.counts) := by
  obtain ⟨bytes, henc, houtcome, hlength, hinspected⟩ : ∃ bytes,
      Draft.straight.encode = .ok bytes ∧ (default : Loader).outcome (.whole 0 (bytes ++ [9])) =
        .ok ("straight", 14, Draft.straight.counts) ∧ bytes.length = 146 ∧
      ∀ i < 147, Inspected (bytes ++ [9]) i → i ≠ 114 ∧ i < 146 :=
    ⟨_, rfl, rfl, rfl, by decide +kernel⟩
  refine ⟨bytes, henc, houtcome, ?_⟩
  rw [← houtcome]
  have hsame : (bytes ++ [9]).length = (bytes.set 114 200 ++ [1]).length := by
    rw [List.length_append, List.length_append, List.length_set]
    rfl
  refine ((@load_indistinguishable (.whole 0 _) (.whole 1 _) default hsame).1 fun i hi => ?_).symm
  show (bytes ++ [9])[i]? = (bytes.set 114 200 ++ [1])[i]?
  by_cases hlt : i < 147
  · obtain ⟨hne, hin⟩ := hinspected i hlt hi
    rw [← hlength] at hin
    rw [List.getElem?_append_left hin, List.getElem?_append_left (by rwa [List.length_set]),
      List.getElem?_set_ne hne.symm]
  · have hout : (bytes ++ [9]).length ≤ i := by
      rw [List.length_append, hlength]
      exact Nat.le_of_not_lt hlt
    rw [List.getElem?_eq_none hout, List.getElem?_eq_none (hsame ▸ hout)]

end Loader

end GrammarArtifact
