import GrammarArtifact.Draft.Encode
import GrammarArtifact.Proofs.HeaderDecoding
import Mathlib.Algebra.GroupWithZero.Nat

/-! How much fits into an artifact. `Draft.exactLength` and `Draft.exactOffset` say, as numbers
without a limit, how long each section of a draft is and how much stands in front of it. Placing
goes by lengths of sixty-four bits instead. They are exact for as long as every section so far has
fitted (`Draft.sectionLength_eq_exactLength`), so placing stops at the first section that is really
too large (`Draft.place_eq_error`) and otherwise makes exact entries (`Draft.place_exact`). Which
drafts are refused, and with what error, is `Draft.encode_eq_error`. -/

namespace GrammarArtifact

namespace Section

variable {version : UInt32} {s t : Section} {before rest : List Section}

/-- Whatever comes before a section of a version is a section of that version as well. -/
theorem mem_ofVersion_of_index_lt (hlt : t.index < s.index) (hs : s ∈ ofVersion version) :
    t ∈ ofVersion version :=
  mem_ofVersion_iff_index_lt.2 (Nat.lt_trans hlt (mem_ofVersion_iff_index_lt.1 hs))

theorem mem_of_split (h : ofVersion version = before ++ s :: rest) : s ∈ ofVersion version :=
  h ▸ List.mem_append_cons_self

/-- What stands in front of a section in a directory. -/
theorem mem_before_iff (h : ofVersion version = before ++ s :: rest) :
    t ∈ before ↔ t.index < s.index := by
  have hpairwise : (ofVersion version).Pairwise fun s t => s.index < t.index :=
    pairwise_ofVersion.2 fun _ _ hlt _ => hlt
  have hs := mem_of_split h
  rw [h] at hpairwise
  obtain ⟨-, hrest, hbefore⟩ := List.pairwise_append.1 hpairwise
  constructor
  · intro ht
    exact hbefore t ht s List.mem_cons_self
  · intro hlt
    have ht := mem_ofVersion_of_index_lt hlt hs
    rw [h, List.mem_append, List.mem_cons] at ht
    rcases ht with ht | rfl | ht
    · exact ht
    · exact absurd hlt (Nat.lt_irrefl _)
    · exact absurd hlt (Nat.lt_asymm ((List.pairwise_cons.1 hrest).1 t ht))

/-- What holds of everything in front of a section. -/
theorem exists_split_iff {P : Section → Prop} :
    (∃ before rest, ofVersion version = before ++ s :: rest ∧ ∀ t ∈ before, P t) ↔
      s ∈ ofVersion version ∧ ∀ t, t.index < s.index → P t := by
  constructor
  · rintro ⟨before, rest, hsplit, hbefore⟩
    exact ⟨mem_of_split hsplit, fun t ht => hbefore t ((mem_before_iff hsplit).2 ht)⟩
  · rintro ⟨hs, hbefore⟩
    obtain ⟨before, rest, hsplit⟩ := List.append_of_mem hs
    exact ⟨before, rest, hsplit, fun t ht => hbefore t ((mem_before_iff hsplit).1 ht)⟩

theorem length_before (h : ofVersion version = before ++ s :: rest) : before.length = s.index := by
  have hget : (ofVersion version)[before.length]? = some s := by rw [h]; simp
  obtain ⟨hlt, hs⟩ := List.getElem?_eq_some_iff.1 hget
  rw [← hs, index_getElem_ofVersion hlt]

theorem eq_take_index (h : ofVersion version = before ++ s :: rest) :
    before = all.take s.index := by
  have hprefix : ofVersion version <+: all := by
    unfold ofVersion
    split
    · exact List.dropLast_prefix all
    · exact List.prefix_rfl
  rw [← length_before h]
  exact List.prefix_iff_eq_take.1 ((List.prefix_append _ _).trans (h ▸ hprefix))

end Section

namespace Draft

/-! ## Exact sizes -/

section

variable (d : Draft)

/-- The length of a section, however large. -/
def exactLength : Section → Nat
  | .name => d.name.utf8ByteSize
  | .symbolNames => (d.symbols.map fun s => s.name.utf8ByteSize + 1).sum
  | .symbolMetadata => d.symbols.length
  | .fieldNames => (d.fields.map fun f => f.utf8ByteSize + 1).sum
  | .parseTable => 2 * d.largeStates.toNat * d.symbols.length
  | .lexModes => 4 * d.states.toNat
  | .primaryStateIds => 2 * d.states.toNat

/-- The length of all sections in front of a section together. -/
def exactOffset (s : Section) : Nat := ((Section.all.take s.index).map d.exactLength).sum

/-- The offset or the length of a section takes more than a word. -/
def TooLarge (s : Section) : Prop :=
  Layout.maxWord < d.exactOffset s ∨ Layout.maxWord < d.exactLength s

instance (s : Section) : Decidable (d.TooLarge s) := inferInstanceAs (Decidable (_ ∨ _))

/-- States have numbers of sixteen bits, and words hold the numbers of symbols and fields. -/
structure Numbered : Prop where
  states : d.states.toNat ≤ 65536
  symbols : d.symbols.length ≤ Layout.maxWord
  fields : d.fields.length ≤ Layout.maxWord

/-- What is said against a draft. Of several things it is the first one. -/
inductive Excess : EncodeError → Prop
  | states (h : 65536 < d.states.toNat) : Excess (.tooManyStates d.states)
  | symbols (hstates : d.states.toNat ≤ 65536) (h : Layout.maxWord < d.symbols.length) :
    Excess .tooManySymbols
  | fields (hstates : d.states.toNat ≤ 65536) (hsymbols : d.symbols.length ≤ Layout.maxWord)
    (h : Layout.maxWord < d.fields.length) : Excess .tooManyFields
  | payload {s : Section} (hnumbered : d.Numbered) (hs : s ∈ Section.ofVersion d.version)
    (h : d.TooLarge s) (hbefore : ∀ t, t.index < s.index → ¬d.TooLarge t) :
    Excess (.sectionTooLarge s)

end

variable {d : Draft} {s : Section} {before sections rest : List Section} {e : EncodeError}

theorem toNat_ofNat_of_le_maxWord {n : Nat} (h : n ≤ Layout.maxWord) :
    (UInt32.ofNat n).toNat = n :=
  UInt32.toNat_ofNat_of_lt' (Nat.lt_succ_of_le h)

theorem lengthFor_eq_sum (texts : List String) :
    StringTable.lengthFor texts = (texts.map fun text => text.utf8ByteSize + 1).sum := by
  induction texts with
  | nil => rfl
  | cons text rest ih => rw [StringTable.lengthFor, ih, List.map_cons, List.sum_cons]

theorem length_le_lengthFor (texts : List String) :
    texts.length ≤ StringTable.lengthFor texts := by
  induction texts with
  | nil => exact Nat.le_refl 0
  | cons text rest ih =>
    rw [List.length_cons, StringTable.lengthFor]
    omega

theorem sectionLength_symbolNames (d : Draft) :
    d.sectionLength .symbolNames = d.exactLength .symbolNames := by
  rw [sectionLength, lengthFor_eq_sum, symbolNames, List.map_map]
  rfl

/-! ## Products of sixty-four bits -/

/-- Every symbol takes a byte for its flags and one more for the end of its name, both in front of
the field names. Where these are reached, there are symbols for less than half a word. -/
theorem two_mul_length_symbols_le (h : ¬d.TooLarge .fieldNames) :
    2 * d.symbols.length ≤ Layout.maxWord := by
  have hoffset : d.exactOffset .fieldNames = d.exactLength .name +
      (d.exactLength .symbolNames + (d.symbols.length + 0)) := rfl
  have hnames : d.symbols.length ≤ d.exactLength .symbolNames := by
    have hle := length_le_lengthFor d.symbolNames
    rw [symbolNames, List.length_map] at hle
    rwa [← sectionLength_symbolNames]
  have hle : d.exactOffset .fieldNames ≤ Layout.maxWord := Nat.le_of_not_lt fun hlt => h (.inl hlt)
  omega

theorem toNat_symbolCount (h : 2 * d.symbols.length ≤ Layout.maxWord) :
    d.symbolCount.toNat = d.symbols.length :=
  toNat_ofNat_of_le_maxWord (by omega)

theorem sectionLength_lexModes (d : Draft) : d.sectionLength .lexModes = 4 * d.states.toNat := by
  have hstates := d.states.toNat_lt
  rw [sectionLength, UInt64.toNat_mul, UInt32.toNat_toUInt64]
  show d.states.toNat * 4 % 2 ^ 64 = _
  omega

/-- The product is exact where it does not wrap. -/
theorem sectionLength_parseTable_of_lt (hcount : d.symbols.length ≤ Layout.maxWord)
    (h : 2 * (d.largeStates.toNat * d.symbols.length) < 2 ^ 64) :
    d.sectionLength .parseTable = 2 * d.largeStates.toNat * d.symbols.length := by
  rw [sectionLength, UInt64.toNat_mul, UInt64.toNat_mul, UInt32.toNat_toUInt64,
    UInt32.toNat_toUInt64, symbolCount, toNat_ofNat_of_le_maxWord hcount, Nat.mul_assoc 2]
  show d.largeStates.toNat * d.symbols.length % 2 ^ 64 * 2 % 2 ^ 64 = _
  omega

/-- With symbols for less than half a word, a parse table has less than `2 ^ 64` bytes. -/
theorem two_mul_entries_lt (h : 2 * d.symbols.length ≤ Layout.maxWord) :
    2 * (d.largeStates.toNat * d.symbols.length) < 2 ^ 64 := by
  have hlarge := d.largeStates.toNat_lt
  have hhalf : d.symbols.length ≤ 2 ^ 31 := by
    unfold Layout.maxWord at h
    omega
  have hproduct : d.largeStates.toNat * d.symbols.length ≤ (2 ^ 32 - 1) * 2 ^ 31 :=
    Nat.mul_le_mul (Nat.le_sub_one_of_lt hlarge) hhalf
  omega

/-- It does not wrap for a draft whose field names are reached. -/
theorem sectionLength_parseTable (h : 2 * d.symbols.length ≤ Layout.maxWord) :
    d.sectionLength .parseTable = 2 * d.largeStates.toNat * d.symbols.length :=
  sectionLength_parseTable_of_lt (by omega) (two_mul_entries_lt h)

/-- Nor does it for a draft with no more large states than there are state numbers. -/
theorem sectionLength_parseTable_of_le (hcount : d.symbols.length ≤ Layout.maxWord)
    (hlarge : d.largeStates ≤ Layout.maxStates) :
    d.sectionLength .parseTable = 2 * d.largeStates.toNat * d.symbols.length := by
  have hlarge : d.largeStates.toNat ≤ 65536 := UInt32.le_iff_toNat_le.1 hlarge
  have hproduct : d.largeStates.toNat * d.symbols.length ≤ 65536 * Layout.maxWord :=
    Nat.mul_le_mul hlarge hcount
  refine sectionLength_parseTable_of_lt hcount ?_
  unfold Layout.maxWord at hproduct
  omega

/-- Lengths are exact as long as every section so far has fitted. -/
theorem sectionLength_eq_exactLength (hbefore : ∀ t, t.index < s.index → ¬d.TooLarge t) :
    d.sectionLength s = d.exactLength s := by
  cases s with
  | name => rfl
  | symbolNames => exact d.sectionLength_symbolNames
  | symbolMetadata => exact Nat.mul_one _
  | fieldNames => exact lengthFor_eq_sum d.fields
  | parseTable =>
    exact sectionLength_parseTable (two_mul_length_symbols_le (hbefore .fieldNames (by decide)))
  | lexModes => exact d.sectionLength_lexModes
  | primaryStateIds => exact Nat.mul_comm _ _

/-! ## Placing sections -/

theorem not_tooLarge_iff : ¬d.TooLarge s ↔
    d.exactOffset s ≤ Layout.maxWord ∧ d.exactLength s ≤ Layout.maxWord := by
  rw [TooLarge, not_or, Nat.not_lt, Nat.not_lt]

/-- One step of placing, behind sections that have fitted. -/
theorem place_cons (hsplit : Section.ofVersion d.version = before ++ s :: rest)
    (hbefore : ∀ t ∈ before, ¬d.TooLarge t) :
    d.place (before.map d.exactLength).sum (s :: rest) = (do
      ensure (¬d.TooLarge s) (.sectionTooLarge s)
      let later ← d.place ((before ++ [s]).map d.exactLength).sum rest
      return later.cons ⟨UInt32.ofNat (d.exactOffset s), UInt32.ofNat (d.exactLength s)⟩) := by
  have hoffset : (before.map d.exactLength).sum = d.exactOffset s := by
    rw [Section.eq_take_index hsplit, exactOffset]
  have hlength : d.sectionLength s = d.exactLength s :=
    sectionLength_eq_exactLength fun t ht => hbefore t ((Section.mem_before_iff hsplit).2 ht)
  have hnext : ((before ++ [s]).map d.exactLength).sum = d.exactOffset s + d.exactLength s := by
    rw [List.map_append, List.sum_append, hoffset, List.map_singleton, List.sum_singleton]
  rw [place, hlength, hoffset, hnext, ensure_congr not_tooLarge_iff]

/-- Placing fails at the first section that is too large. -/
theorem place_eq_error (hsplit : Section.ofVersion d.version = before ++ sections)
    (hbefore : ∀ t ∈ before, ¬d.TooLarge t) :
    d.place (before.map d.exactLength).sum sections = .error e ↔
      ∃ s, sections.find? (d.TooLarge ·) = some s ∧ e = .sectionTooLarge s := by
  induction sections generalizing before with
  | nil => exact ⟨fun h => (nomatch h), fun ⟨_, h, _⟩ => (nomatch h)⟩
  | cons s rest ih =>
    rw [place_cons hsplit hbefore]
    by_cases hs : d.TooLarge s
    · rw [ensure_of_neg (not_not_intro hs), List.find?_cons, decide_eq_true hs]
      constructor
      · intro h
        exact ⟨s, rfl, (Except.error.inj h).symm⟩
      · rintro ⟨_, ⟨⟩, rfl⟩
        rfl
    · have hnext := @ih (before ++ [s]) (by rw [hsplit, List.append_assoc]; rfl)
        (List.forall_mem_append.2 ⟨hbefore, List.forall_mem_singleton.2 hs⟩)
      rw [ensure_of_pos hs, ok_bind, bind_eq_error, hnext, List.find?_cons, decide_eq_false hs]
      exact or_iff_left fun ⟨_, _, h⟩ => (nomatch h)

/-- The entries of a directory are exact. -/
theorem place_exact (hsplit : Section.ofVersion d.version = before ++ sections)
    (hbefore : ∀ t ∈ before, ¬d.TooLarge t) {dir : Directory sections}
    (h : d.place (before.map d.exactLength).sum sections = .ok dir) :
    ∀ p ∈ sections.zip dir.1, ¬d.TooLarge p.1 ∧ p.2.offset.toNat = d.exactOffset p.1 ∧
      p.2.length.toNat = d.exactLength p.1 := by
  induction sections generalizing before with
  | nil => exact fun _ h => (nomatch h)
  | cons s rest ih =>
    rw [place_cons hsplit hbefore] at h
    simp only [bind_eq_ok, ensure_eq_ok, exists_and_left, exists_const, pure_eq_ok] at h
    obtain ⟨hs, later, hlater, rfl⟩ := h
    obtain ⟨hoffset, hlength⟩ := not_tooLarge_iff.1 hs
    refine List.forall_mem_cons.2 ⟨⟨hs, toNat_ofNat_of_le_maxWord hoffset,
      toNat_ofNat_of_le_maxWord hlength⟩, ?_⟩
    exact @ih (before ++ [s]) (by rw [hsplit, List.append_assoc]; rfl)
      (List.forall_mem_append.2 ⟨hbefore, List.forall_mem_singleton.2 hs⟩) later hlater

theorem header_eq_ok {h : Header} : d.header = .ok h ↔ d.states ≤ Layout.maxStates ∧
    d.symbols.length ≤ Layout.maxWord ∧ d.fields.length ≤ Layout.maxWord ∧
    ∃ dir, d.place 0 (Section.ofVersion d.version) = .ok dir ∧ ⟨d.version, d.counts, dir⟩ = h := by
  simp only [header, bind_eq_ok, ensure_eq_ok, exists_and_left, exists_const, pure_eq_ok]

theorem exact_of_header {h : Header} (hh : d.header = .ok h) : ∀ p ∈ h.sections,
    ¬d.TooLarge p.1 ∧ p.2.offset.toNat = d.exactOffset p.1 ∧
      p.2.length.toNat = d.exactLength p.1 := by
  obtain ⟨-, -, -, dir, hplace, rfl⟩ := header_eq_ok.1 hh
  exact @place_exact d [] (Section.ofVersion d.version) rfl (fun _ h => (nomatch h)) dir hplace

theorem not_tooLarge_of_header {h : Header} (hh : d.header = .ok h)
    (hs : s ∈ Section.ofVersion d.version) : ¬d.TooLarge s := by
  have hversion : h.version = d.version := by
    obtain ⟨-, -, -, dir, -, rfl⟩ := header_eq_ok.1 hh
    rfl
  rw [← hversion, ← h.map_fst_sections] at hs
  obtain ⟨p, hp, rfl⟩ := List.mem_map.1 hs
  exact (exact_of_header hh p hp).1

/-! ## Drafts that are refused -/

theorem find?_tooLarge_eq_some {version : UInt32} :
    (Section.ofVersion version).find? (d.TooLarge ·) = some s ↔
      s ∈ Section.ofVersion version ∧ d.TooLarge s ∧ ∀ t, t.index < s.index → ¬d.TooLarge t := by
  simp only [List.find?_eq_some_iff_append, decide_eq_true_eq, Bool.not_eq_true',
    decide_eq_false_iff_not, Section.exists_split_iff]
  exact and_left_comm

theorem exists_first_tooLarge {version : UInt32} (hs : s ∈ Section.ofVersion version)
    (h : d.TooLarge s) : ∃ t ∈ Section.ofVersion version, d.TooLarge t ∧
      ∀ u, u.index < t.index → ¬d.TooLarge u := by
  cases hfind : (Section.ofVersion version).find? (d.TooLarge ·) with
  | none =>
    have hnone := List.find?_eq_none.1 hfind s hs
    exact absurd (decide_eq_true h) hnone
  | some t => exact ⟨t, find?_tooLarge_eq_some.1 hfind⟩

theorem place_zero_eq_error : d.place 0 (Section.ofVersion d.version) = .error e ↔
    ∃ s, (s ∈ Section.ofVersion d.version ∧ d.TooLarge s ∧
      ∀ t, t.index < s.index → ¬d.TooLarge t) ∧ e = .sectionTooLarge s := by
  have hplace : d.place 0 (Section.ofVersion d.version) = .error e ↔ _ :=
    @place_eq_error d [] (Section.ofVersion d.version) e rfl fun _ h => (nomatch h)
  simp only [hplace, find?_tooLarge_eq_some]

theorem header_eq_error : d.header = .error e ↔ d.Excess e := by
  have hle : d.states ≤ Layout.maxStates ↔ d.states.toNat ≤ 65536 := UInt32.le_iff_toNat_le
  simp only [header, bind_eq_error, ensure_eq_error, ensure_eq_ok, exists_and_left, exists_const,
    place_zero_eq_error, hle, Nat.not_le]
  constructor
  · rintro (⟨h, rfl⟩ | ⟨hstates, ⟨h, rfl⟩ | ⟨hsymbols, ⟨h, rfl⟩ | ⟨hfields, h⟩⟩⟩)
    · exact .states h
    · exact .symbols hstates h
    · exact .fields hstates hsymbols h
    · rcases h with ⟨s, ⟨hs, h, hbefore⟩, rfl⟩ | ⟨_, _, ⟨⟩⟩
      exact .payload ⟨hstates, hsymbols, hfields⟩ hs h hbefore
  · intro h
    cases h with
    | states h => exact .inl ⟨h, rfl⟩
    | symbols hstates h => exact .inr ⟨hstates, .inl ⟨h, rfl⟩⟩
    | fields hstates hsymbols h => exact .inr ⟨hstates, .inr ⟨hsymbols, .inl ⟨h, rfl⟩⟩⟩
    | payload hnumbered hs h hbefore =>
      obtain ⟨hstates, hsymbols, hfields⟩ := hnumbered
      exact .inr ⟨hstates, .inr ⟨hsymbols, .inr ⟨hfields, .inl ⟨_, ⟨hs, h, hbefore⟩, rfl⟩⟩⟩⟩

/-- A draft whose numbers are too large is refused before its sections are placed. -/
theorem exists_excess_of_not_numbered (h : ¬d.Numbered) :
    ∃ e, d.Excess e ∧ ∀ s, e ≠ .sectionTooLarge s := by
  by_cases hstates : d.states.toNat ≤ 65536
  · by_cases hsymbols : d.symbols.length ≤ Layout.maxWord
    · have hfields : Layout.maxWord < d.fields.length :=
        Nat.lt_of_not_le fun hfields => h ⟨hstates, hsymbols, hfields⟩
      exact ⟨_, .fields hstates hsymbols hfields, fun _ h => (nomatch h)⟩
    · exact ⟨_, .symbols hstates (Nat.lt_of_not_le hsymbols), fun _ h => (nomatch h)⟩
  · exact ⟨_, .states (Nat.lt_of_not_le hstates), fun _ h => (nomatch h)⟩

theorem exists_header_iff : (∃ h, d.header = .ok h) ↔
    d.Numbered ∧ ∀ s ∈ Section.ofVersion d.version, ¬d.TooLarge s := by
  constructor
  · rintro ⟨h, hh⟩
    refine ⟨Classical.byContradiction fun hnot => ?_, fun _ => not_tooLarge_of_header hh⟩
    obtain ⟨e, he, -⟩ := exists_excess_of_not_numbered hnot
    rw [header_eq_error.2 he] at hh
    nomatch hh
  · rintro ⟨hnumbered, hfits⟩
    cases hh : d.header with
    | ok h => exact ⟨h, rfl⟩
    | error e =>
      cases header_eq_error.1 hh with
      | states h => exact absurd hnumbered.states (Nat.not_le.2 h)
      | symbols _ h => exact absurd hnumbered.symbols (Nat.not_le.2 h)
      | fields _ _ h => exact absurd hnumbered.fields (Nat.not_le.2 h)
      | payload _ hs h _ => exact absurd h (hfits _ hs)

theorem encode_eq_error : d.encode = .error e ↔ d.Excess e := by
  rw [← header_eq_error, encode, bind_eq_error]
  exact or_iff_left fun ⟨_, _, h⟩ => (nomatch h)

end Draft

end GrammarArtifact
