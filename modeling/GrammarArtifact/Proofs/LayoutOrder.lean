import GrammarArtifact.Patch
import GrammarArtifact.Proofs.Capacity
import GrammarArtifact.Proofs.Diagnosis
import GrammarArtifact.Proofs.RoundTrip

/-! Which fault of a layout is reported. Sections are gone through one by one, and each is asked
first whether it lies in the payload and then whether it starts behind the one in front of it
(`Format.layout_eq_flatMap`). So faults are ranked by section, not by kind: an overlap is reported
even though a later section dangles (`Loader.layoutFaults`). -/

namespace GrammarArtifact

namespace Section

/-- The section in front of a section in every directory. -/
def previous? (s : Section) : Option Section := (all.take s.index).getLast?

theorem previous?_eq_some {p s : Section} : s.previous? = some p ↔ s.index = p.index + 1 := by
  cases s <;> cases p <;> decide

theorem index_of_neighbours {version : UInt32} {p s : Section} (h : [p, s] <:+: ofVersion version) :
    s.index = p.index + 1 := by
  obtain ⟨before, after, hsplit⟩ := h
  rw [List.append_assoc] at hsplit
  have hp : before.length = p.index := length_before hsplit.symm
  have hs : (before ++ [p]).length = s.index :=
    length_before (hsplit.symm.trans (List.append_assoc before [p] (s :: after)).symm)
  rw [← hs, List.length_append, hp]
  rfl

end Section

namespace Format

variable {range : VersionRange} {bytes : Bytes} {checks later : List Check} {c : Check}
  {e : LoadError} {s t p : Section} {sections : List Section}

/-! ## First failures in lists of checks -/

theorem firstFailure_nil : ¬FirstFailure range bytes [] e := by
  rintro ⟨before, c, after, h, -⟩
  nomatch List.append_eq_nil_iff.1 h.symm

theorem firstFailure_append : FirstFailure range bytes (checks ++ later) e ↔
    FirstFailure range bytes checks e ∨
      ((∀ c ∈ checks, c.Holds range bytes) ∧ FirstFailure range bytes later e) := by
  constructor
  · intro h
    induction checks with
    | nil => exact .inr ⟨fun _ h => (nomatch h), h⟩
    | cons c rest ih =>
      rcases firstFailure_cons.1 h with hfails | ⟨hc, hrest⟩
      · exact .inl (firstFailure_cons.2 (.inl hfails))
      · rcases ih hrest with hrest | ⟨hrest, hlater⟩
        · exact .inl (firstFailure_cons.2 (.inr ⟨hc, hrest⟩))
        · exact .inr ⟨List.forall_mem_cons.2 ⟨hc, hrest⟩, hlater⟩
  · rintro (h | ⟨hchecks, h⟩)
    · exact h.append later
    · exact .of_append hchecks h

/-- Where lists of checks are made one after another, one of them has the first failure. -/
theorem firstFailure_flatMap {f : Section → List Check} :
    FirstFailure range bytes (sections.flatMap f) e ↔ ∃ s,
      (∃ before rest, sections = before ++ s :: rest ∧
        ∀ t ∈ before, ∀ c ∈ f t, c.Holds range bytes) ∧ FirstFailure range bytes (f s) e := by
  induction sections with
  | nil =>
    refine ⟨fun h => absurd h firstFailure_nil, fun ⟨s, ⟨before, rest, h, _⟩, _⟩ => ?_⟩
    nomatch List.append_eq_nil_iff.1 h.symm
  | cons s rest ih =>
    rw [List.flatMap_cons, firstFailure_append, ih]
    constructor
    · rintro (h | ⟨hs, t, ⟨before, after, rfl, hbefore⟩, h⟩)
      · exact ⟨s, ⟨[], rest, rfl, fun _ h => (nomatch h)⟩, h⟩
      · exact ⟨t, ⟨s :: before, after, rfl, List.forall_mem_cons.2 ⟨hs, hbefore⟩⟩, h⟩
    · rintro ⟨t, ⟨before, after, hsplit, hbefore⟩, h⟩
      cases before with
      | nil =>
        obtain ⟨rfl, rfl⟩ := List.cons.inj hsplit
        exact .inl h
      | cons u before =>
        obtain ⟨rfl, rfl⟩ := List.cons.inj hsplit
        obtain ⟨hs, hbefore⟩ := List.forall_mem_cons.1 hbefore
        exact .inr ⟨hs, t, ⟨before, after, rfl, hbefore⟩, h⟩

/-- Only a check that does not hold fails. -/
theorem FirstFailure.exists_not_holds (h : FirstFailure range bytes checks e) :
    ∃ c ∈ checks, ¬c.Holds range bytes := by
  obtain ⟨before, c, after, rfl, -, hc, -⟩ := h
  exact ⟨c, by simp, hc⟩

/-! ## The checks of a section -/

/-- A section reaches beyond the payload. -/
def Dangling (bytes : Bytes) (s : Section) : Prop :=
  (payload bytes).length < start bytes s + size bytes s

/-- A section starts before another one has stopped. -/
def Overlapping (bytes : Bytes) (p s : Section) : Prop :=
  start bytes s < start bytes p + size bytes p

instance (bytes : Bytes) (s : Section) : Decidable (Dangling bytes s) :=
  inferInstanceAs (Decidable (_ < _))

instance (bytes : Bytes) (p s : Section) : Decidable (Overlapping bytes p s) :=
  inferInstanceAs (Decidable (_ < _))

/-- A section lies in the payload, behind the one in front of it. -/
def WellPlaced (bytes : Bytes) (s : Section) : Prop :=
  ¬Dangling bytes s ∧ ∀ p, s.index = p.index + 1 → ¬Overlapping bytes p s

/-- What is asked of the place of a section. -/
def Check.place (s : Section) : List Check := .inside s :: s.previous?.toList.map (.ordered · s)

theorem layout_eq_flatMap (version : UInt32) : Check.layout none (Section.ofVersion version) =
    (Section.ofVersion version).flatMap Check.place := by
  unfold Section.ofVersion
  split <;> rfl

theorem forall_place_holds :
    (∀ c ∈ Check.place s, c.Holds range bytes) ↔ WellPlaced bytes s := by
  rw [Check.place, List.forall_mem_cons, WellPlaced, Dangling, Nat.not_lt]
  simp only [List.forall_mem_map, Option.mem_toList, Section.previous?_eq_some, Overlapping,
    Nat.not_lt]
  rfl

theorem firstFailure_place : FirstFailure range bytes (Check.place s) e ↔
    (Dangling bytes s ∧ e = .defective (.dangling s (extent bytes s) (payload bytes).length)) ∨
      (¬Dangling bytes s ∧ ∃ p, s.index = p.index + 1 ∧ Overlapping bytes p s ∧
        e = .defective (.overlapping p s)) := by
  have hinside : ¬(Check.inside s).Holds range bytes ↔ Dangling bytes s := Nat.not_le
  have hholds : (Check.inside s).Holds range bytes ↔ ¬Dangling bytes s := Nat.not_lt.symm
  rw [Check.place, firstFailure_cons, hinside, hholds]
  refine or_congr Iff.rfl (and_congr_right fun _ => ?_)
  simp only [← Section.previous?_eq_some]
  cases s.previous? with
  | none =>
    exact ⟨fun h => absurd h firstFailure_nil, fun ⟨_, h, _⟩ => (nomatch h)⟩
  | some p =>
    have hordered : ¬(Check.ordered p s).Holds range bytes ↔ Overlapping bytes p s := Nat.not_le
    simp only [Option.toList_some, List.map_singleton, firstFailure_cons, hordered,
      firstFailure_nil, and_false, or_false, Option.some.injEq, exists_eq_left']
    rfl

theorem firstFailure_layout {version : UInt32} :
    FirstFailure range bytes (Check.layout none (Section.ofVersion version)) e ↔
      ∃ s ∈ Section.ofVersion version, (∀ t, t.index < s.index → WellPlaced bytes t) ∧
        FirstFailure range bytes (Check.place s) e := by
  simp only [layout_eq_flatMap, firstFailure_flatMap, forall_place_holds,
    Section.exists_split_iff, and_assoc]

/-- A section that dangles is reported when everything in front of it is well placed. -/
theorem firstFailure_layout_dangling {version : UInt32} (hs : s ∈ Section.ofVersion version)
    (hdangling : Dangling bytes s) :
    FirstFailure range bytes (Check.layout none (Section.ofVersion version))
        (.defective (.dangling s (extent bytes s) (payload bytes).length)) ↔
      ∀ t, t.index < s.index → WellPlaced bytes t := by
  rw [firstFailure_layout]
  constructor
  · rintro ⟨t, -, hbefore, h⟩
    rcases firstFailure_place.1 h with ⟨-, heq⟩ | ⟨-, p, -, -, heq⟩
    · cases heq
      exact hbefore
    · nomatch heq
  · intro hbefore
    exact ⟨s, hs, hbefore, firstFailure_place.2 (.inl ⟨hdangling, rfl⟩)⟩

/-- An overlap is reported when the section does not dangle and everything in front of it is well
placed. -/
theorem firstFailure_layout_overlapping {version : UInt32} (hs : s ∈ Section.ofVersion version)
    (hindex : s.index = p.index + 1) (hoverlap : Overlapping bytes p s) :
    FirstFailure range bytes (Check.layout none (Section.ofVersion version))
        (.defective (.overlapping p s)) ↔
      ¬Dangling bytes s ∧ ∀ t, t.index < s.index → WellPlaced bytes t := by
  rw [firstFailure_layout]
  constructor
  · rintro ⟨t, -, hbefore, h⟩
    rcases firstFailure_place.1 h with ⟨-, heq⟩ | ⟨hinside, q, -, -, heq⟩
    · nomatch heq
    · cases heq
      exact ⟨hinside, hbefore⟩
  · rintro ⟨hinside, hbefore⟩
    exact ⟨s, hs, hbefore, firstFailure_place.2 (.inr ⟨hinside, p, hindex, hoverlap, rfl⟩)⟩

end Format

namespace Loader

open Format

variable {loader : Loader} {artifact : Region} {e : LoadError}

/-- The checks in front of the layout. -/
theorem forall_frame_holds (hframed : Framed artifact.bytes)
    (hmem : tag artifact.bytes ∈ loader.versions) :
    ∀ c ∈ [Check.present, .tagLength, .magic, .version, .fixedLength, .sectionCount, .headerLength],
      c.Holds loader.versions artifact.bytes := by
  have hfits := hframed.fits
  have hne : artifact.bytes ≠ [] := List.length_pos_iff.1 (by omega)
  have htag : 12 ≤ artifact.bytes.length := by omega
  have hfixed : 40 ≤ artifact.bytes.length := by omega
  simp only [List.forall_mem_cons]
  exact ⟨hne, htag, hframed.magic, header_version_mem.1 hmem, hfixed, hframed.declared, hfits,
    fun _ h => (nomatch h)⟩

/-- Where the header and the version are accepted and some section is not well placed, the layout
decides the answer. -/
theorem load_eq_error_of_layout (hframed : Framed artifact.bytes)
    (hmem : tag artifact.bytes ∈ loader.versions) {s : Section}
    (hs : s ∈ Section.ofVersion (tag artifact.bytes)) (hplaced : ¬WellPlaced artifact.bytes s) :
    loader.load (some artifact) = .error e ↔ FirstFailure loader.versions artifact.bytes
      (Check.layout none (Section.ofVersion (tag artifact.bytes))) e := by
  have hframe := forall_frame_holds hframed hmem
  rw [(decides_load loader (some artifact)).eq_error_iff]
  show FirstFailure loader.versions artifact.bytes (Check.all artifact.bytes) e ↔ _
  constructor
  · intro h
    rcases firstFailure_append.1 h with h | ⟨-, h⟩
    · obtain ⟨c, hc, hnot⟩ := h.exists_not_holds
      exact absurd (hframe c hc) hnot
    · rcases firstFailure_append.1 h with h | ⟨hlayout, -⟩
      · exact h
      · refine absurd (forall_place_holds.1 fun c hc => hlayout c ?_) hplaced
        rw [layout_eq_flatMap]
        exact List.mem_flatMap.2 ⟨s, hs, hc⟩
  · intro h
    exact .of_append hframe (h.append _)

/-- A load reports overlaps of neighbours only. -/
theorem neighbours_of_load {p s : Section}
    (hload : loader.load (some artifact) = .error (.defective (.overlapping p s))) :
    s ∈ Section.ofVersion (tag artifact.bytes) ∧ s.index = p.index + 1 ∧
      Overlapping artifact.bytes p s := by
  have hfailure := (decides_load loader (some artifact)).eq_error_iff.1 hload
  obtain ⟨hneighbours, hoverlap⟩ := hfailure.accurate
  exact ⟨hneighbours.subset (by simp), Section.index_of_neighbours hneighbours, hoverlap⟩

/-- How a load answers to faults of the layout. -/
structure LayoutFaults (loader : Loader) (artifact : Region) : Prop where
  /-- The first section that dangles is reported unless there is an overlap in front of it. Overlaps
  behind it play no part, and neither does its own. -/
  dangling : ∀ s ∈ Section.ofVersion (tag artifact.bytes), Dangling artifact.bytes s →
    (∀ t, t.index < s.index → ¬Dangling artifact.bytes t) →
    (loader.load (some artifact) = .error (.defective
        (.dangling s (extent artifact.bytes s) (payload artifact.bytes).length)) ↔
      ∀ p t, t.index = p.index + 1 → t.index < s.index → ¬Overlapping artifact.bytes p t)
  /-- The first overlap is reported when no section up to it dangles. -/
  overlapping : ∀ p s, loader.load (some artifact) = .error (.defective (.overlapping p s)) ↔
    s ∈ Section.ofVersion (tag artifact.bytes) ∧ s.index = p.index + 1 ∧
    Overlapping artifact.bytes p s ∧ (∀ t, t.index ≤ s.index → ¬Dangling artifact.bytes t) ∧
    ∀ q t, t.index = q.index + 1 → t.index < s.index → ¬Overlapping artifact.bytes q t

theorem layoutFaults (loader : Loader) (hframed : Framed artifact.bytes)
    (hmem : tag artifact.bytes ∈ loader.versions) : LayoutFaults loader artifact where
  dangling s hs hdangling hfirst := by
    rw [load_eq_error_of_layout hframed hmem hs fun h => h.1 hdangling,
      firstFailure_layout_dangling hs hdangling]
    constructor
    · intro hbefore p t hindex ht
      exact (hbefore t ht).2 p hindex
    · intro hordered t ht
      exact ⟨hfirst t ht, fun p hindex => hordered p t hindex ht⟩
  overlapping p s := by
    constructor
    · intro hload
      obtain ⟨hs, hindex, hoverlap⟩ := neighbours_of_load hload
      rw [load_eq_error_of_layout hframed hmem hs fun h => h.2 p hindex hoverlap,
        firstFailure_layout_overlapping hs hindex hoverlap] at hload
      obtain ⟨hinside, hbefore⟩ := hload
      refine ⟨hs, hindex, hoverlap, fun t ht => ?_, fun q t hq ht => (hbefore t ht).2 q hq⟩
      rcases Nat.lt_or_eq_of_le ht with hlt | heq
      · exact (hbefore t hlt).1
      · rwa [Section.index_injective heq]
    · rintro ⟨hs, hindex, hoverlap, hinside, hordered⟩
      rw [load_eq_error_of_layout hframed hmem hs fun h => h.2 p hindex hoverlap,
        firstFailure_layout_overlapping hs hindex hoverlap]
      refine ⟨hinside s (Nat.le_refl _), fun t ht => ⟨hinside t (Nat.le_of_lt ht), ?_⟩⟩
      exact fun q hq => hordered q t hq ht

/-- An artifact in which words of the directory have been replaced. -/
def displaced (patches : List Patch) : Region :=
  .whole 0 (Patch.applyAll patches (Draft.straight.encode.toOption.getD []))

set_option maxRecDepth 4000 in
/-- The lexer modes start inside of the name, behind metadata that leave the payload. -/
theorem layoutFaults_displaced : ∃ artifact : Region, Framed artifact.bytes ∧
    tag artifact.bytes ∈ VersionRange.supported ∧
    Overlapping artifact.bytes .parseTable .lexModes ∧
    (default : Loader).load (some artifact) =
      .error (.defective (.dangling .symbolMetadata ⟨17, 10000⟩ 50)) := by
  obtain ⟨artifact, hframed, hmem, hdangling, hname, hnames, hordered, hoverlap, hextent, hlength⟩ :
      ∃ artifact : Region, Framed artifact.bytes ∧ tag artifact.bytes ∈ VersionRange.supported ∧
        Dangling artifact.bytes .symbolMetadata ∧ ¬Dangling artifact.bytes .name ∧
        ¬Dangling artifact.bytes .symbolNames ∧ ¬Overlapping artifact.bytes .name .symbolNames ∧
        Overlapping artifact.bytes .parseTable .lexModes ∧
        extent artifact.bytes .symbolMetadata = ⟨17, 10000⟩ ∧
        (payload artifact.bytes).length = 50 :=
    ⟨displaced [.sectionLength .symbolMetadata 10000, .sectionOffset .lexModes 0],
      ⟨by decide, rfl, by decide⟩, by decide, by decide, by decide, by decide, by decide, by decide,
      rfl, rfl⟩
  have hfaults := layoutFaults default hframed hmem
  refine ⟨artifact, hframed, hmem, hoverlap, ?_⟩
  rw [← hextent, ← hlength]
  refine (hfaults.dangling .symbolMetadata (Section.mem_ofVersion_of_ne _ (by decide)) hdangling
    fun t ht => ?_).2 fun p t hindex ht => ?_
  · cases t with
    | name => exact hname
    | symbolNames => exact hnames
    | _ => exact absurd ht (by decide)
  · have hlt : t.index < 2 := ht
    obtain rfl : p = .name := Section.index_injective (show p.index = 0 by omega)
    obtain rfl : t = .symbolNames := Section.index_injective hindex
    exact hordered

set_option maxRecDepth 4000 in
/-- An overlap is reported although the parse table, which comes later, dangles. -/
theorem load_overlapping_of_dangling : ∃ artifact : Region, Framed artifact.bytes ∧
    tag artifact.bytes ∈ VersionRange.supported ∧ Dangling artifact.bytes .parseTable ∧
    (∀ t, t.index < Section.parseTable.index → ¬Dangling artifact.bytes t) ∧
    (default : Loader).load (some artifact) =
      .error (.defective (.overlapping .name .symbolNames)) :=
  ⟨displaced [.sectionOffset .symbolNames 0, .sectionLength .parseTable 10000],
    ⟨by decide, rfl, by decide⟩, by decide, by decide, fun t ht => by
      cases t with
      | parseTable | lexModes | primaryStateIds => exact absurd ht (by decide)
      | _ => decide, rfl⟩

end Loader

end GrammarArtifact
