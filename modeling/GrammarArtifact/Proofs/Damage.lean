import GrammarArtifact.Proofs.Acceptance
import GrammarArtifact.Proofs.HeaderWords
import GrammarArtifact.Proofs.RoundTrip

/-! Damage to a header that is always noticed. The lengths of the tables and the numbers of strings
tie most words of a header to the rest of the artifact: once one of them is replaced, no other value
makes the artifact well formed again (`Format.WellFormed.eq_of_patched`). -/

namespace GrammarArtifact

namespace StringTable

variable {data rest : Bytes} {m n k : Nat}

/-- More strings take more terminators. -/
theorem eq_nil_of_count_append (h : count data = some n) (h' : count (data ++ rest) = some n) :
    rest = [] := by
  obtain ⟨-, hn⟩ := count_eq_some.1 h
  obtain ⟨hterminated, hn'⟩ := count_eq_some.1 h'
  have hzero : rest.count 0 = 0 := by
    rw [List.count_append] at hn'
    omega
  cases hlast : rest.getLast? with
  | none => exact List.getLast?_eq_none_iff.1 hlast
  | some b =>
    -- The last byte of what is added would be a terminator.
    have hb : b = 0 := hterminated b (by rw [List.getLast?_append, hlast, Option.some_or])
    have hmem : 0 ∈ rest := hb ▸ List.mem_of_getLast? hlast
    exact absurd hmem (List.count_eq_zero.1 hzero)

/-- At most one length gives a table of so many strings. -/
theorem length_unique (hm : m ≤ data.length) (hk : k ≤ data.length)
    (h : count (data.take m) = some n) (h' : count (data.take k) = some n) : m = k := by
  have hle : ∀ {m k : Nat}, m ≤ k → k ≤ data.length → count (data.take m) = some n →
      count (data.take k) = some n → m = k := by
    intro m k hmk hk h h'
    obtain ⟨rest, hrest⟩ : data.take m <+: data.take k := List.take_prefix_take_left hmk
    rw [← hrest] at h'
    rw [eq_nil_of_count_append h h', List.append_nil] at hrest
    have hlength := congrArg List.length hrest
    rwa [List.length_take_of_le (Nat.le_trans hmk hk), List.length_take_of_le hk] at hlength
  rcases Nat.le_total m k with hmk | hkm
  · exact hle hmk hk h h'
  · exact (hle hkm hm h' h).symm

end StringTable

namespace Format

variable {bytes : Bytes} {range range' : VersionRange} {w : HeaderWord} {value : UInt32}
  {s : Section}

/-! ## Lengths -/

namespace WellFormed

theorem length_contents (h : WellFormed range bytes) (hs : s.index < sectionCount bytes) :
    (contents bytes s).length = size bytes s := by
  have hle := h.inside s hs
  rw [contents, List.length_take, List.length_drop]
  omega

theorem index_lt_sectionCount (hs : s ≠ .primaryStateIds) : s.index < sectionCount bytes := by
  have hsix := Section.index_lt_six.2 hs
  unfold sectionCount
  split <;> omega

theorem size_symbolMetadata (h : WellFormed range bytes) :
    size bytes .symbolMetadata = symbols bytes := by
  rw [← h.length_contents (index_lt_sectionCount (by decide)), h.symbolMetadata]

theorem size_parseTable (h : WellFormed range bytes) :
    size bytes .parseTable = 2 * largeStates bytes * symbols bytes := by
  rw [← h.length_contents (index_lt_sectionCount (by decide)), h.parseTable]

theorem size_lexModes (h : WellFormed range bytes) : size bytes .lexModes = 4 * states bytes := by
  rw [← h.length_contents (index_lt_sectionCount (by decide)), h.lexModes]

theorem size_primaryStateIds (h : WellFormed range bytes)
    (hs : Section.primaryStateIds.index < sectionCount bytes) :
    size bytes .primaryStateIds = 2 * states bytes := by
  have hversion : 14 ≤ version bytes := by
    simp only [sectionCount, Section.index] at hs
    split at hs <;> omega
  rw [← h.length_contents hs, h.primaryStateIds hversion]

end WellFormed

/-! ## One word replaced -/

/-- The words that the rest of a well-formed artifact determines. The number of large states plays
no part where there are no symbols, since the parse table is empty then. -/
def HeaderWord.Determined (bytes : Bytes) : HeaderWord → Prop
  | .sectionCount | .count .symbols | .count .states | .count .fields => True
  | .count .largeStates => 0 < symbols bytes
  | .length s => s ≠ .name ∧ s.index < Format.sectionCount bytes
  | .version | .count .tokens | .count .externals | .offset _ => False

theorem HeaderWord.Determined.ne_version (hw : w.Determined bytes) : w ≠ .version := by
  rintro rfl
  exact hw

/-- Such a word is one of the header. -/
theorem HeaderWord.Determined.position_le (hw : w.Determined bytes) :
    w.position + 4 ≤ 40 + 8 * Format.sectionCount bytes := by
  cases w with
  | version | sectionCount => simp only [position]; omega
  | count c => have hc := countPosition_bounds c; simp only [position]; omega
  | offset s => exact hw.elim
  | length s => have hs := hw.2; simp only [position]; omega

theorem contents_congr {a b : Bytes} (hpayload : payload a = payload b)
    (hstart : start a s = start b s) (hsize : size a s = size b s) :
    contents a s = contents b s := by
  rw [contents, contents, hpayload, hstart, hsize]

/-- A string table has no other length with the same number of strings. -/
theorem size_unique {a b : Bytes} {n : Nat} (hpayload : payload a = payload b)
    (hstart : start a s = start b s) (ha : start a s + size a s ≤ (payload a).length)
    (hb : start b s + size b s ≤ (payload b).length) (htable : IsStringTable n (contents a s))
    (htable' : IsStringTable n (contents b s)) : size a s = size b s := by
  rw [isStringTable_iff_count] at htable htable'
  rw [contents, hpayload, hstart] at htable
  rw [hpayload, hstart] at ha
  refine StringTable.length_unique ?_ ?_ htable htable'
  all_goals
    rw [List.length_drop]
    omega

/-- Two byte strings that differ in one word of the header, which has a given value in the second
one. -/
structure Patched (w : HeaderWord) (value : UInt32) (bytes patched : Bytes) : Prop where
  self : word patched w.position = value.toNat
  other : ∀ v, v ≠ w → word patched v.position = word bytes v.position
  sectionCount : sectionCount patched = sectionCount bytes
  payload : payload patched = payload bytes

theorem Framed.patched (h : Framed bytes) (hw : w.Determined bytes) (value : UInt32) :
    Patched w value bytes (Patch.apply bytes (w.patch value)) :=
  have hfits := Nat.le_trans hw.position_le h.fits
  { self := word_patched_self hfits
    other := fun _ hv => word_patched_of_ne hfits hv
    sectionCount := sectionCount_patched hfits hw.ne_version
    payload := payload_patched h.fits hw.position_le hw.ne_version }

namespace Patched

variable {patched : Bytes} {c : Count}

/-- A count of an artifact is seen in the length of a table, the number of fields in their names. -/
theorem count_eq (hp : Patched (.count c) value bytes patched)
    (hw : HeaderWord.Determined bytes (.count c)) (h : WellFormed range bytes)
    (h' : WellFormed range' patched) : value.toNat = word bytes (HeaderWord.count c).position := by
  have hsize : ∀ s, size patched s = size bytes s := fun s => hp.other (.length s) nofun
  rw [← hp.self]
  cases c with
  | tokens | externals => exact hw.elim
  | symbols =>
    show symbols patched = symbols bytes
    rw [← h'.size_symbolMetadata, ← h.size_symbolMetadata, hsize]
  | states =>
    have hproduct : 4 * states patched = 4 * states bytes := by
      rw [← h'.size_lexModes, ← h.size_lexModes, hsize]
    exact Nat.eq_of_mul_eq_mul_left (by decide) hproduct
  | largeStates =>
    have hsymbols : symbols patched = symbols bytes := hp.other (.count .symbols) (by decide)
    have hproduct : 2 * largeStates patched * symbols bytes =
        2 * largeStates bytes * symbols bytes := by
      rw [← h.size_parseTable, ← hsize, h'.size_parseTable, hsymbols]
    exact Nat.eq_of_mul_eq_mul_left (by decide) (Nat.eq_of_mul_eq_mul_right hw hproduct)
  | fields =>
    have hstart : start patched .fieldNames = start bytes .fieldNames :=
      hp.other (.offset .fieldNames) nofun
    have htable := isStringTable_iff_count.1 h'.fieldNames
    rw [contents_congr hp.payload hstart (hsize _),
      isStringTable_iff_count.1 h.fieldNames] at htable
    exact (Option.some.inj htable).symm

/-- The length of a table follows from the counts, and that of a string table from its strings. -/
theorem length_eq (hp : Patched (.length s) value bytes patched)
    (hw : HeaderWord.Determined bytes (.length s)) (h : WellFormed range bytes)
    (h' : WellFormed range' patched) : value.toNat = word bytes (HeaderWord.length s).position := by
  have hsymbols : symbols patched = symbols bytes := hp.other (.count .symbols) nofun
  have hstates : states patched = states bytes := hp.other (.count .states) nofun
  have hlarge : largeStates patched = largeStates bytes := hp.other (.count .largeStates) nofun
  have hfields : fields patched = fields bytes := hp.other (.count .fields) nofun
  have hstart : start patched s = start bytes s := hp.other (.offset s) nofun
  obtain ⟨hname, hs⟩ := hw
  have hs' : s.index < Format.sectionCount patched := by rwa [hp.sectionCount]
  have htables : ∀ n, IsStringTable n (contents patched s) → IsStringTable n (contents bytes s) →
      size patched s = size bytes s :=
    fun n => size_unique hp.payload hstart (h'.inside s hs') (h.inside s hs)
  rw [← hp.self]
  show size patched s = size bytes s
  cases s with
  | name => exact absurd rfl hname
  | symbolNames => exact htables _ h'.symbolNames (hsymbols ▸ h.symbolNames)
  | symbolMetadata => rw [h'.size_symbolMetadata, h.size_symbolMetadata, hsymbols]
  | fieldNames => exact htables _ h'.fieldNames (hfields ▸ h.fieldNames)
  | parseTable => rw [h'.size_parseTable, h.size_parseTable, hlarge, hsymbols]
  | lexModes => rw [h'.size_lexModes, h.size_lexModes, hstates]
  | primaryStateIds => rw [h'.size_primaryStateIds hs', h.size_primaryStateIds hs, hstates]

end Patched

/-- Only the value that was there before makes the artifact well formed. -/
theorem WellFormed.eq_of_patched (h : WellFormed range bytes) (hw : w.Determined bytes)
    (h' : WellFormed range' (Patch.apply bytes (w.patch value))) :
    value.toNat = word bytes w.position := by
  have hp := h.toFramed.patched hw value
  cases w with
  | version | offset s => exact hw.elim
  | count c => exact hp.count_eq hw h h'
  | length s => exact hp.length_eq hw h h'
  | sectionCount =>
    have hdeclared := h'.declared
    rw [hp.sectionCount, ← h.declared] at hdeclared
    exact hp.self.symm.trans hdeclared

end Format

namespace Loader

open Format

variable {loader : Loader} {artifact other : Region} {l : Language} {w : HeaderWord}
  {value : UInt32}

theorem wellFormed_of_load (hl : loader.load (some artifact) = .ok l) :
    WellFormed loader.versions artifact.bytes := by
  obtain ⟨hdecode, hmem, hcheck, -⟩ := load_eq_ok.1 hl
  obtain ⟨hframed, hheader⟩ := Format.decode_eq_ok.1 hdecode
  have hsound := (Header.check_eq_ok.1 hcheck).1
  rw [hheader] at hmem hsound
  exact wellFormed_iff.2 ⟨hframed, hmem, hsound⟩

/-- An artifact that is accepted is refused as soon as a word that the rest of it determines has
any other value. -/
theorem load_damaged (hl : loader.load (some artifact) = .ok l)
    (hw : w.Determined artifact.bytes) (hne : value.toNat ≠ word artifact.bytes w.position)
    (hother : other.bytes = Patch.apply artifact.bytes (w.patch value)) :
    ∃ e, loader.load (some other) = .error e := by
  cases hload : loader.load (some other) with
  | error e => exact ⟨e, rfl⟩
  | ok l' =>
    have h' := wellFormed_of_load hload
    rw [hother] at h'
    exact absurd ((wellFormed_of_load hl).eq_of_patched hw h') hne

set_option maxRecDepth 4000 in
/-- The field names may not be extended over the parse table, although that begins with a zero. -/
theorem load_damaged_straight : ∃ bytes l, Draft.straight.encode = .ok bytes ∧
    (default : Loader).load (some (.whole 0 bytes)) = .ok l ∧
    word bytes (HeaderWord.length .fieldNames).position = 5 ∧
    ∃ e, (default : Loader).load (some (.whole 1 (Patch.apply bytes
      (HeaderWord.patch (.length .fieldNames) 6)))) = .error e := by
  obtain ⟨bytes, l, henc, hl, hw, hword⟩ : ∃ bytes l, Draft.straight.encode = .ok bytes ∧
      (default : Loader).load (some (.whole 0 bytes)) = .ok l ∧
      HeaderWord.Determined bytes (.length .fieldNames) ∧
      word bytes (HeaderWord.length .fieldNames).position = 5 :=
    ⟨_, _, rfl, rfl, ⟨by decide, by decide⟩, rfl⟩
  have hne : (6 : UInt32).toNat ≠ word bytes (HeaderWord.length .fieldNames).position := by
    rw [hword]
    decide
  exact ⟨bytes, l, henc, hl, hword, load_damaged hl hw hne rfl⟩

end Loader

end GrammarArtifact
