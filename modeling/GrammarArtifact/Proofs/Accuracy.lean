import GrammarArtifact.Proofs.Checks

/-! What an error says of the bytes. `Format.Accurate` reads each error as a statement: every value
that it carries stands in the bytes or is computed from them, and the fault that it names is there.
The error of a check that a load makes and that does not hold is accurate (`Check.accurate`), so
the first failure of a load is as well. -/

namespace GrammarArtifact

namespace Format

section

variable (range : VersionRange) (bytes : Bytes)

/-- What an error about the header says of the bytes is the case. -/
def AccurateHeader : HeaderError → Prop
  | .truncated needed found => found = bytes.length ∧ found < needed ∧
      needed ∈ [12, 40, 40 + 8 * sectionCount bytes]
  | .badMagic => ¬Bytes.ofText "TSLANGv1" <+: bytes
  | .sectionCount v expected found => v.toNat = version bytes ∧ expected = sectionCount bytes ∧
      found.toNat = word bytes 36 ∧ found.toNat ≠ expected

/-- What a defect says of the artifact is the case. The values in it are those of the header words
and of the contents that contradict one another. -/
def AccurateDefect : Defect → Prop
  | .header e => AccurateHeader bytes e
  | .dangling s e limit => s ∈ Section.ofVersion (tag bytes) ∧ e.offset.toNat = start bytes s ∧
      e.length.toNat = size bytes s ∧ limit = (payload bytes).length ∧
      limit < e.offset.toNat + e.length.toNat
  | .overlapping previous s => [previous, s] <:+: Section.ofVersion (tag bytes) ∧
      start bytes s < start bytes previous + size bytes previous
  | .inconsistentCounts c value bound limit => (c, bound) ∈ Counts.bounds ∧
      value.toNat = count bytes c ∧ limit.toNat = count bytes bound ∧ limit < value
  | .tooManyStates n => n.toNat = states bytes ∧ 65536 < n.toNat
  | .badName => contents bytes .name = [] ∨ ∀ text, Bytes.ofText text ≠ contents bytes .name
  | .unterminated s => s ∈ [.symbolNames, .fieldNames] ∧
      ∃ last, (contents bytes s).getLast? = some last ∧ last ≠ 0
  | .symbolCount declared actual => declared.toNat = symbols bytes ∧
      actual = (contents bytes .symbolNames).count 0 ∧
      StringTable.Terminated (contents bytes .symbolNames) ∧ actual ≠ declared.toNat
  | .fieldCount declared actual => declared.toNat = fields bytes ∧
      actual = (contents bytes .fieldNames).count 0 ∧
      StringTable.Terminated (contents bytes .fieldNames) ∧ actual ≠ declared.toNat
  | .sectionLength s expected actual => s ∈ Section.ofVersion (tag bytes) ∧
      impliedLength? bytes s = some expected ∧ actual = (contents bytes s).length ∧
      actual ≠ expected

/-- What an error says of an artifact and of the range of versions is the case. -/
def Accurate : LoadError → Prop
  | .missing => bytes = []
  | .incompatible found expected => found.toNat = version bytes ∧ expected = range ∧
      ¬(range.min.toNat ≤ found.toNat ∧ found.toNat ≤ range.max.toNat)
  | .defective d => AccurateDefect bytes d

/-- What a check is about, where a load makes it. -/
def Check.Applies : Check → Prop
  | .inside s => s ∈ Section.ofVersion (tag bytes)
  | .ordered previous s => [previous, s] <:+: Section.ofVersion (tag bytes)
  | .bounded c bound => (c, bound) ∈ Counts.bounds
  | .terminated s => s ∈ [.symbolNames, .fieldNames]
  | .length s expected => s ∈ Section.ofVersion (tag bytes) ∧ impliedLength? bytes s = some expected
  | _ => True

end

variable {range : VersionRange} {bytes : Bytes} {c : Check} {e : LoadError}

/-! ## The checks of a load -/

theorem mem_layout {previous : Option Section} {sections : List Section}
    (h : c ∈ Check.layout previous sections) : (∃ s ∈ sections, c = .inside s) ∨
      ∃ t s, [t, s] <:+: previous.toList ++ sections ∧ c = .ordered t s := by
  induction sections generalizing previous with
  | nil => nomatch h
  | cons s rest ih =>
    simp only [Check.layout, List.mem_cons, List.mem_append, List.mem_map] at h
    rcases h with rfl | ⟨t, ht, rfl⟩ | h
    · exact .inl ⟨s, List.mem_cons_self, rfl⟩
    · rw [Option.mem_toList] at ht
      exact .inr ⟨t, s, ⟨[], rest, by rw [ht]; rfl⟩, rfl⟩
    · rcases ih h with ⟨t, ht, rfl⟩ | ⟨t, u, htu, rfl⟩
      · exact .inl ⟨t, List.mem_cons_of_mem _ ht, rfl⟩
      · exact .inr ⟨t, u, htu.trans (List.suffix_append _ _).isInfix, rfl⟩

theorem mem_contents {s : Section} (hs : s ∈ Section.ofVersion (tag bytes))
    (h : c ∈ Check.contents bytes s) : c.Applies bytes := by
  cases s with
  | name =>
    obtain rfl := List.mem_singleton.1 h
    trivial
  | symbolNames | fieldNames =>
    simp only [Check.contents, List.mem_cons, List.not_mem_nil, or_false] at h
    rcases h with rfl | rfl
    · simp [Check.Applies]
    · trivial
  | symbolMetadata | parseTable | lexModes | primaryStateIds =>
    obtain rfl := List.mem_singleton.1 h
    exact ⟨hs, rfl⟩

theorem Check.applies (h : c ∈ Check.all bytes) : c.Applies bytes := by
  rw [Check.all, List.mem_append, List.mem_append, List.mem_append] at h
  rcases h with h | h | h | h
  · simp only [List.mem_cons, List.not_mem_nil, or_false] at h
    rcases h with rfl | rfl | rfl | rfl | rfl | rfl | rfl <;> trivial
  · rcases mem_layout h with ⟨s, hs, rfl⟩ | ⟨t, s, hts, rfl⟩
    · exact hs
    · exact hts
  · simp only [Check.counts, List.mem_cons, List.not_mem_nil, or_false] at h
    rcases h with rfl | rfl | rfl | rfl
    · simp [Check.Applies, Counts.bounds]
    · simp [Check.Applies, Counts.bounds]
    · simp [Check.Applies, Counts.bounds]
    · trivial
  · obtain ⟨s, hs, hc⟩ := List.mem_flatMap.1 h
    exact mem_contents hs hc

/-! ## Their errors -/

theorem toNat_ofNat_count (bytes : Bytes) (c : Count) :
    (UInt32.ofNat (count bytes c)).toNat = count bytes c := by
  cases c <;> exact toNat_ofNat_word _ _

/-- A table whose strings are not as many as declared has been counted, so it is terminated. -/
theorem terminated_of_count {s : Section} {declared : UInt32} {n : Nat}
    (hdeclared : declared.toNat = n)
    (h : ¬∀ m ∈ StringTable.count (contents bytes s), m = n) :
    StringTable.Terminated (contents bytes s) ∧ (contents bytes s).count 0 ≠ declared.toNat := by
  simp only [Classical.not_forall] at h
  obtain ⟨m, hm, hne⟩ := h
  obtain ⟨hterminated, rfl⟩ := StringTable.count_eq_some.1 hm
  exact ⟨hterminated, hdeclared ▸ hne⟩

/-- A check that does not hold reports what is the case. -/
theorem Check.accurate (happlies : c.Applies bytes) (h : ¬c.Holds range bytes) :
    Accurate range bytes (c.error range bytes) := by
  cases c with
  | present => exact Classical.not_not.1 h
  | tagLength => exact ⟨rfl, Nat.lt_of_not_le h, by simp⟩
  | magic => exact h
  | version =>
    refine ⟨toNat_ofNat_word _ _, rfl, ?_⟩
    rwa [show (tag bytes).toNat = Format.version bytes from toNat_ofNat_word _ _]
  | fixedLength => exact ⟨rfl, Nat.lt_of_not_le h, by simp⟩
  | sectionCount =>
    refine ⟨toNat_ofNat_word _ _, rfl, toNat_ofNat_word _ _, ?_⟩
    rwa [toNat_ofNat_word]
  | headerLength => exact ⟨rfl, Nat.lt_of_not_le h, by simp⟩
  | inside s =>
    refine ⟨happlies, toNat_ofNat_word _ _, toNat_ofNat_word _ _, rfl, ?_⟩
    rw [← Extent.stop, stop_extent]
    exact Nat.lt_of_not_le h
  | ordered previous s => exact ⟨happlies, Nat.lt_of_not_le h⟩
  | bounded c bound =>
    refine ⟨happlies, toNat_ofNat_count bytes c, toNat_ofNat_count bytes bound, ?_⟩
    rw [UInt32.lt_iff_toNat_lt, toNat_ofNat_count, toNat_ofNat_count]
    exact Nat.lt_of_not_le h
  | states =>
    have hstates := toNat_ofNat_count bytes .states
    exact ⟨hstates, Nat.lt_of_lt_of_eq (Nat.lt_of_not_le h) hstates.symm⟩
  | name =>
    refine Classical.or_iff_not_imp_left.2 fun hne text htext => h ⟨text, ?_, htext⟩
    rintro rfl
    exact hne htext.symm
  | terminated s =>
    simp only [Check.Holds, StringTable.Terminated, Classical.not_forall] at h
    obtain ⟨last, hlast, hne⟩ := h
    exact ⟨happlies, last, hlast, hne⟩
  | symbolCount =>
    have hdeclared := toNat_ofNat_count bytes .symbols
    exact ⟨hdeclared, rfl, terminated_of_count hdeclared h⟩
  | fieldCount =>
    have hdeclared := toNat_ofNat_count bytes .fields
    exact ⟨hdeclared, rfl, terminated_of_count hdeclared h⟩
  | length s expected => exact ⟨happlies.1, happlies.2, rfl, h⟩

theorem FirstFailure.accurate (h : FirstFailure range bytes (Check.all bytes) e) :
    Accurate range bytes e := by
  obtain ⟨before, c, after, hall, -, hc, rfl⟩ := h
  exact Check.accurate (Check.applies (by rw [hall]; simp)) hc

end Format

end GrammarArtifact
