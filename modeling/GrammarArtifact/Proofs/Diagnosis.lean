import GrammarArtifact.Proofs.Accuracy

/-! What a load reports. Every part of a load is decided by its checks in the order in which they
are listed (`Format.Decides`), and so is the load as a whole (`Loader.decides_load`). Its error is
therefore the one of the first check that does not hold, and what it says of the artifact is the
case (`Loader.load_eq_error_iff`). -/

namespace GrammarArtifact

theorem mapError_ensure {ε δ : Type} {p : Prop} [Decidable p] {e : ε} {g : ε → δ} :
    (ensure p e).mapError g = ensure p (g e) := by
  by_cases h : p
  · rw [ensure_of_pos h, ensure_of_pos h, mapError_ok]
  · rw [ensure_of_neg h, ensure_of_neg h]
    rfl

namespace Format

open Integrity

variable {range : VersionRange} {bytes : Bytes}

/-! ## The layout -/

theorem decides_previous (previous : Option Section) (s : Section) :
    Decides range bytes (previous.toList.map (Check.ordered · s))
      (((previous.map fun t => (t, (extent bytes t).stop)).forM fun (before, stop) =>
        ensure (stop ≤ (extent bytes s).offset.toNat) (Defect.overlapping before s)).mapError
          .defective) := by
  cases previous with
  | none => exact fun _ h => (nomatch h)
  | some t =>
    show Decides range bytes [.ordered t s] ((ensure _ _).mapError _)
    rw [mapError_ensure, stop_extent, offset_extent]
    exact .ensure Iff.rfl rfl

theorem decides_layout (previous : Option Section) (sections : List Section) :
    Decides range bytes (Check.layout previous sections)
      ((checkLayout (payload bytes).length (previous.map fun t => (t, (extent bytes t).stop))
        (sections.map fun s => (s, extent bytes s))).mapError .defective) := by
  induction sections generalizing previous with
  | nil => exact fun _ h => (nomatch h)
  | cons s rest ih =>
    rw [Check.layout, List.map_cons, checkLayout, mapError_bind, mapError_ensure, stop_extent]
    refine .ensure_bind Iff.rfl rfl fun _ => ?_
    rw [mapError_bind]
    refine (decides_previous previous s).bind fun _ _ => ?_
    rw [← stop_extent]
    exact ih (some s)

/-! ## The counts -/

theorem decides_counts : Decides range bytes Check.counts
    ((header bytes).counts.check.mapError .defective) := by
  simp only [Counts.check_eq, mapError_bind, mapError_ensure]
  refine .ensure_bind ofNat_word_le rfl fun _ => ?_
  refine .ensure_bind ofNat_word_le rfl fun _ => ?_
  refine .ensure_bind ofNat_word_le rfl fun _ => ?_
  exact .ensure ofNat_states_le rfl

/-! ## The contents -/

theorem decides_name : Decides range bytes [.name]
    ((checkName (contents bytes .name)).mapError .defective) := by
  unfold checkName
  split
  · next htext =>
    refine firstFailure_cons.2 (.inl ⟨fun ⟨name, _, hname⟩ => ?_, rfl⟩)
    rw [Bytes.text?_eq_some_iff.2 hname] at htext
    nomatch htext
  · next name htext =>
    have hname := Bytes.text?_eq_some_iff.1 htext
    have hholds : name ≠ "" ↔ Check.Holds range bytes .name := by
      constructor
      · intro hne
        exact ⟨name, hne, hname⟩
      · rintro ⟨name', hne, hname'⟩
        rwa [Bytes.ofText_injective (hname.trans hname'.symm)]
    rw [mapError_bind, mapError_ensure]
    exact (Decides.ensure hholds rfl).bind_ok _

theorem decides_terminated (s : Section) : Decides range bytes [.terminated s]
    ((countStrings s (contents bytes s)).mapError .defective) := by
  unfold countStrings
  split
  · next hcount => exact firstFailure_cons.2 (.inl ⟨StringTable.count_eq_none.1 hcount, rfl⟩)
  · next n hcount => exact List.forall_mem_singleton.2 (StringTable.count_eq_some.1 hcount).1

theorem decides_table {s : Section} {implied : Option Nat} {n : Nat} (h : implied = some n) :
    Decides range bytes [.length s n] (Except.mapError .defective (do
      checkLength s (contents bytes s) implied
      return (none : Option String))) := by
  subst h
  rw [mapError_bind, checkLength, mapError_ensure]
  have hlength : Decides range bytes [.length s n] (ensure ((contents bytes s).length = n)
      (LoadError.defective (.sectionLength s n (contents bytes s).length))) := .ensure Iff.rfl rfl
  exact hlength.bind_ok fun _ => none

/-- A string table is counted when its last string is terminated. -/
theorem decides_strings {s : Section} {c : Check} {declared : UInt32} {defect : Nat → Defect}
    (hholds : c.Holds range bytes ↔
      ∀ n ∈ StringTable.count (contents bytes s), n = declared.toNat)
    (herror : c.error range bytes = .defective (defect ((contents bytes s).count 0))) :
    Decides range bytes [.terminated s, c] (Except.mapError .defective (do
      let n ← countStrings s (contents bytes s)
      ensure (n = declared.toNat) (defect n)
      return (none : Option String))) := by
  rw [mapError_bind]
  refine (decides_terminated s).bind fun n hn => ?_
  have hcount := countStrings_eq_ok.1 (mapError_eq_ok.1 hn)
  obtain ⟨-, rfl⟩ := StringTable.count_eq_some.1 hcount
  rw [hcount] at hholds
  rw [mapError_bind, mapError_ensure]
  refine (Decides.ensure ?_ herror.symm).bind_ok fun _ => none
  rw [hholds]
  exact ⟨fun h n hn => Option.some.inj hn ▸ h, fun h => h _ rfl⟩

/-- Where the counts are in bounds, no product is too large to be exact. -/
theorem decides_content (hbounded : (header bytes).counts.Bounded) (s : Section) :
    Decides range bytes (Check.contents bytes s)
      ((checkContent (header bytes).counts s (contents bytes s)).mapError .defective) := by
  have hlarge := UInt32.le_trans hbounded.largeStates hbounded.states
  cases s with
  | name =>
    rw [checkContent, mapError_bind]
    exact decides_name.bind_ok some
  | symbolNames => exact decides_strings (by rw [toNat_symbols]; rfl) rfl
  | fieldNames => exact decides_strings (by rw [toNat_fields]; rfl) rfl
  | symbolMetadata =>
    refine decides_table ?_
    rw [tableLength?_singleton (by decide), toNat_symbols, Layout.metadataEntry, Nat.one_mul]
  | parseTable =>
    refine decides_table ?_
    rw [tableLength?_states hlarge (by decide), toNat_largeStates, toNat_symbols]
    rfl
  | lexModes | primaryStateIds =>
    refine decides_table ?_
    rw [tableLength?_singleton (by decide), toNat_states]
    rfl

theorem decides_contents (hbounded : (header bytes).counts.Bounded) {sections : List Section}
    (hinside : ∀ s ∈ sections, start bytes s + size bytes s ≤ (payload bytes).length)
    (name : Option String) :
    Decides range bytes (sections.flatMap (Check.contents bytes))
      ((checkContents (header bytes).counts (payload bytes) name
        (sections.map fun s => (s, extent bytes s))).mapError .defective) := by
  induction sections generalizing name with
  | nil => exact fun _ h => (nomatch h)
  | cons s rest ih =>
    obtain ⟨hs, hrest⟩ := List.forall_mem_cons.1 hinside
    have hslice := slice?_extent.2 ⟨hs, rfl⟩
    rw [List.flatMap_cons, List.map_cons, checkContents, hslice]
    show Decides range bytes _ ((checkContent _ s _ >>= _).mapError _)
    rw [mapError_bind]
    exact (decides_content hbounded s).bind fun found _ => ih hrest (found.or name)

/-! ## The whole artifact -/

/-- The name is the first section, so the contents give it whenever they pass. -/
theorem exists_eq_some_of_checkContents {h : Header} {payload : Bytes} {found : Option String}
    (hbounded : h.counts.Bounded)
    (hfound : checkContents h.counts payload none h.sections = .ok found) :
    ∃ name, found = some name := by
  obtain ⟨hfits, rfl⟩ := (checkContents_eq_ok hbounded).1 hfound
  obtain ⟨e, rest, hsections, -, hrest⟩ := h.sections_eq_cons
  rw [hsections] at hfits ⊢
  obtain ⟨data, hslice, name, -, hname⟩ := hfits (.name, e) List.mem_cons_self
  have hat : nameAt payload (.name, e) = some name := by
    rw [nameAt, hslice]
    exact Bytes.text?_eq_some_iff.2 hname
  exact ⟨name, (nameAfter_of_ne hrest).trans (congrArg (·.or none) hat)⟩

theorem decides_check (hframed : Framed bytes) : Decides range bytes
    (Check.layout none (Section.ofVersion (tag bytes)) ++
      (Check.counts ++ (Section.ofVersion (tag bytes)).flatMap (Check.contents bytes)))
    (((header bytes).check bytes).mapError .defective) := by
  rw [Header.check, mapError_bind, hframed.payload_header, sections_header]
  refine (decides_layout none _).bind fun _ hlayout => ?_
  rw [mapError_bind]
  refine decides_counts.bind fun _ hcounts => ?_
  have hlaid := (checkLayout_eq_ok.1 (mapError_eq_ok.1 hlayout)).1
  have hbounded := Counts.check_eq_ok.1 (mapError_eq_ok.1 hcounts)
  rw [mapError_bind]
  refine (decides_contents hbounded ?_ none).bind_of_ok fun found hcontents => ?_
  · intro s hs
    rw [← stop_extent]
    exact hlaid.inside (s, extent bytes s) (List.mem_map_of_mem hs)
  · have hfound : checkContents (header bytes).counts (payload bytes) none
        (header bytes).sections = .ok found := by
      rw [sections_header]
      exact mapError_eq_ok.1 hcontents
    obtain ⟨name, rfl⟩ := exists_eq_some_of_checkContents hbounded hfound
    exact ⟨name, rfl⟩

end Format

namespace Loader

open Format

/-- The bytes that a load is given. An artifact that is absent has none. -/
def given (artifact : Option Region) : Bytes := artifact.elim [] Region.bytes

/-- A load is decided by all of its checks in turn. -/
theorem decides_load (loader : Loader) (artifact : Option Region) :
    Decides loader.versions (given artifact) (Check.all (given artifact))
      (loader.load artifact) := by
  cases artifact with
  | none => exact firstFailure_cons.2 (.inl ⟨fun h => h rfl, rfl⟩)
  | some artifact =>
    show Decides loader.versions artifact.bytes (Check.all artifact.bytes) _
    rw [load_eq, checkTag, mapError_bind, mapError_ensure, mapError_ensure, bind_assoc, Check.all]
    refine .ensure_bind Iff.rfl rfl fun _ => ?_
    refine .ensure_bind Iff.rfl rfl fun _ => ?_
    refine .ensure_bind Iff.rfl rfl fun hmagic => ?_
    refine .ensure_bind header_version_mem rfl fun _ => ?_
    rw [examine, checkFrame]
    simp only [mapError_bind, mapError_ensure, bind_assoc]
    refine .ensure_bind Iff.rfl rfl fun _ => ?_
    refine .ensure_bind Iff.rfl rfl fun hdeclared => ?_
    refine .ensure_bind Iff.rfl rfl fun hfits => ?_
    exact (decides_check ⟨hmagic, hdeclared, hfits⟩).bind_ok fun name => _

/-- A load fails with the first failure among its checks, and its error is accurate. -/
theorem load_eq_error_iff (loader : Loader) (artifact : Option Region) (e : LoadError) :
    loader.load artifact = .error e ↔
      FirstFailure loader.versions (given artifact) (Check.all (given artifact)) e ∧
        Accurate loader.versions (given artifact) e := by
  rw [(decides_load loader artifact).eq_error_iff]
  exact ⟨fun h => ⟨h, h.accurate⟩, And.left⟩

end Loader

end GrammarArtifact
