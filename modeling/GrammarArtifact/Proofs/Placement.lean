import GrammarArtifact.Proofs.Capacity
import GrammarArtifact.Proofs.Structure

/-! How a draft is laid out. `Draft.place` gives sections that follow one another without gaps, and
each extent finds the contents of its section in the payload; `Draft.Stored` collects what holds of
every draft that has an artifact. Conversely, extents without gaps make up the payload
(`Contiguous.drop_eq`), and a header with such extents of the right lengths is the one that is made
for the draft (`Draft.header_of_contiguous`). -/

namespace GrammarArtifact

/-- Extents that follow one another without gaps from one offset to another. -/
def Contiguous : Nat → List Extent → Nat → Prop
  | first, [], last => first = last
  | first, e :: rest, last => e.offset.toNat = first ∧ Contiguous e.stop rest last

theorem Contiguous.le {first last : Nat} {extents : List Extent}
    (h : Contiguous first extents last) : first ≤ last := by
  induction extents generalizing first with
  | nil => exact Nat.le_of_eq h
  | cons e rest ih =>
    have hstart := e.offset_le_stop
    have hrest := ih h.2
    rw [← h.1]
    exact Nat.le_trans hstart hrest

/-- Extents without gaps are laid out in order, each before the end of the last one. -/
theorem Contiguous.laid {first last : Nat} {sections : List (Section × Extent)}
    (h : Contiguous first (sections.map Prod.snd) last) :
    Integrity.Laid last sections ∧ ∀ p ∈ sections, first ≤ p.2.offset.toNat := by
  induction sections generalizing first with
  | nil => exact ⟨Integrity.laid_nil, fun _ h => (nomatch h)⟩
  | cons p rest ih =>
    obtain ⟨hoffset, hrest⟩ := h
    obtain ⟨hlaid, hafter⟩ := ih hrest
    refine ⟨Integrity.laid_cons.2 ⟨hrest.le, hafter, hlaid⟩, ?_⟩
    rw [List.forall_mem_cons]
    refine ⟨Nat.le_of_eq hoffset.symm, fun q hq => ?_⟩
    rw [← hoffset]
    exact Nat.le_trans p.2.offset_le_stop (hafter q hq)

/-- Sections without gaps make up all bytes between the first and the last position. -/
theorem Contiguous.drop_eq {first last : Nat} {sections : List (Section × Extent)}
    {payload : Bytes} {contents : Section → Bytes}
    (h : Contiguous first (sections.map Prod.snd) last)
    (hcontents : ∀ p ∈ sections, p.2.slice? payload = some (contents p.1)) :
    payload.drop first = (sections.map Prod.fst).flatMap contents ++ payload.drop last := by
  induction sections generalizing first with
  | nil =>
    obtain rfl : first = last := h
    rfl
  | cons p rest ih =>
    obtain ⟨hfirst, hrest⟩ := h
    obtain ⟨hp, hcontents⟩ := List.forall_mem_cons.1 hcontents
    obtain ⟨-, hdata⟩ := Bytes.slice?_eq_some_iff.1 hp
    rw [List.map_cons, List.flatMap_cons, List.append_assoc, ← ih hrest hcontents, hdata,
      Extent.stop, ← List.drop_drop, hfirst, List.take_append_drop]

namespace Draft

variable {d : Draft} {offset last : Nat} {s : Section} {sections rest : List Section}

/-! ## Placing sections -/

theorem place_cons_eq_ok {dir : Directory (s :: rest)} : d.place offset (s :: rest) = .ok dir ↔
    (offset ≤ Layout.maxWord ∧ d.sectionLength s ≤ Layout.maxWord) ∧
    ∃ later, d.place (offset + d.sectionLength s) rest = .ok later ∧
      dir = later.cons ⟨UInt32.ofNat offset, UInt32.ofNat (d.sectionLength s)⟩ := by
  simp only [place, bind_eq_ok, ensure_eq_ok, exists_and_left, exists_const, pure_eq_ok,
    eq_comm (a := dir)]

theorem place_contiguous {dir : Directory sections} (h : d.place offset sections = .ok dir) :
    Contiguous offset dir.1 (offset + (sections.flatMap d.sectionBytes).length) := by
  induction sections generalizing offset with
  | nil =>
    obtain rfl : dir = Directory.nil := Subtype.ext (List.length_eq_zero_iff.1 dir.2)
    exact (Nat.add_zero offset).symm
  | cons s rest ih =>
    obtain ⟨⟨hoffset, hlength⟩, later, hlater, rfl⟩ := place_cons_eq_ok.1 h
    have hrest := ih hlater
    rw [Nat.add_assoc, ← d.length_sectionBytes, ← List.length_append, ← List.flatMap_cons] at hrest
    refine ⟨toNat_ofNat_of_le_maxWord hoffset, ?_⟩
    rw [Extent.stop, toNat_ofNat_of_le_maxWord hoffset, toNat_ofNat_of_le_maxWord hlength,
      ← d.length_sectionBytes]
    exact hrest

/-- Sections of the right lengths are placed where they follow one another without gaps. -/
theorem place_of_contiguous {dir : Directory sections} (h : Contiguous offset dir.1 last)
    (hlengths : ∀ p ∈ sections.zip dir.1, p.2.length.toNat = d.sectionLength p.1) :
    d.place offset sections = .ok dir := by
  induction sections generalizing offset with
  | nil =>
    obtain rfl : dir = Directory.nil := Subtype.ext (List.length_eq_zero_iff.1 dir.2)
    rfl
  | cons s rest ih =>
    obtain ⟨_ | ⟨e, later⟩, hlen⟩ := dir
    · nomatch hlen
    obtain ⟨hoffset, hrest⟩ := h
    obtain ⟨hlength, hlater⟩ := List.forall_mem_cons.1 hlengths
    subst hoffset
    have hstop : e.stop = e.offset.toNat + d.sectionLength s := by rw [Extent.stop, hlength]
    refine place_cons_eq_ok.2 ⟨⟨Nat.le_of_lt_succ e.offset.toNat_lt, ?_⟩,
      ⟨later, Nat.succ.inj hlen⟩, ?_, ?_⟩
    · rw [← hlength]
      exact Nat.le_of_lt_succ e.length.toNat_lt
    · rw [← hstop]
      exact ih hrest hlater
    · rw [← hlength, UInt32.ofNat_toNat, UInt32.ofNat_toNat]
      rfl

/-- Behind the sections already written, each extent finds the contents of its section. -/
theorem place_slice? {dir : Directory sections} {before : Bytes}
    (h : d.place before.length sections = .ok dir) : ∀ p ∈ sections.zip dir.1,
      p.2.slice? (before ++ sections.flatMap d.sectionBytes) = some (d.sectionBytes p.1) := by
  induction sections generalizing before with
  | nil => exact fun _ h => (nomatch h)
  | cons s rest ih =>
    obtain ⟨⟨hoffset, hlength⟩, later, hlater, rfl⟩ := place_cons_eq_ok.1 h
    rw [← d.length_sectionBytes, ← List.length_append] at hlater
    have hrest := ih hlater
    rw [List.append_assoc, ← List.flatMap_cons] at hrest
    refine List.forall_mem_cons.2 ⟨?_, hrest⟩
    rw [Extent.slice?, toNat_ofNat_of_le_maxWord hoffset, toNat_ofNat_of_le_maxWord hlength,
      ← d.length_sectionBytes, Bytes.slice?_eq_some_iff, List.flatMap_cons, List.drop_left,
      List.take_left]
    refine ⟨?_, rfl⟩
    rw [List.length_append, List.length_append]
    exact Nat.add_le_add_left (Nat.le_add_right _ _) _

/-! ## Drafts that have an artifact -/

/-- A header that was made for a draft. -/
structure Stored (d : Draft) (h : Header) : Prop where
  version : h.version = d.version
  counts : h.counts = d.counts
  statesBounded : d.states ≤ Layout.maxStates
  symbolsHalved : 2 * d.symbols.length ≤ Layout.maxWord
  fieldsFit : d.fields.length ≤ Layout.maxWord
  contiguous : Contiguous 0 (h.sections.map Prod.snd) d.payload.length
  contents : ∀ p ∈ h.sections, p.2.slice? d.payload = some (d.sectionBytes p.1)

theorem Stored.symbolCount {h : Header} (hd : d.Stored h) :
    d.symbolCount.toNat = d.symbols.length := toNat_symbolCount hd.symbolsHalved

theorem Stored.fieldCount {h : Header} (hd : d.Stored h) :
    d.fieldCount.toNat = d.fields.length := toNat_ofNat_of_le_maxWord hd.fieldsFit

theorem stored_of_header {h : Header} (hh : d.header = .ok h) : d.Stored h := by
  have hreached : ¬d.TooLarge .fieldNames :=
    not_tooLarge_of_header hh (Section.mem_ofVersion_of_ne _ (by decide))
  obtain ⟨hstates, -, hfields, dir, hplace, rfl⟩ := header_eq_ok.1 hh
  refine ⟨rfl, rfl, hstates, two_mul_length_symbols_le hreached, hfields, ?_,
    fun p hp => @place_slice? d _ _ [] hplace p hp⟩
  rw [Header.map_snd_sections, ← Nat.zero_add d.payload.length]
  exact place_contiguous hplace

/-- A header with the counts of a draft and directory entries of the right lengths is the one that
is made for it. -/
theorem header_of_contiguous {h : Header} (hversion : h.version = d.version)
    (hcounts : h.counts = d.counts) (hstates : d.states ≤ Layout.maxStates)
    (hsymbols : d.symbols.length ≤ Layout.maxWord) (hfields : d.fields.length ≤ Layout.maxWord)
    (hcontiguous : Contiguous 0 (h.sections.map Prod.snd) last)
    (hlengths : ∀ p ∈ h.sections, p.2.length.toNat = d.sectionLength p.1) : d.header = .ok h := by
  obtain ⟨version, counts, dir⟩ := h
  obtain rfl : version = d.version := hversion
  obtain rfl : counts = d.counts := hcounts
  rw [Header.map_snd_sections] at hcontiguous
  exact header_eq_ok.2
    ⟨hstates, hsymbols, hfields, dir, place_of_contiguous hcontiguous hlengths, rfl⟩

theorem encode_eq_ok {bytes : Bytes} :
    d.encode = .ok bytes ↔ ∃ h, d.header = .ok h ∧ h.encode ++ d.payload = bytes := by
  simp only [encode, bind_eq_ok, pure_eq_ok]

end Draft

end GrammarArtifact
