import GrammarArtifact.Proofs.RoundTrip
import GrammarArtifact.Proofs.Stages
import GrammarArtifact.Runtime

/-! The range of a loader decides whether the version of an artifact is accepted, and nothing else.
Without a version there is one answer for all loaders, and all loaders that accept the version go
on alike (`Loader.load_of_mem`); `Loader.VersionGate` collects what follows for the loads of one
artifact. -/

namespace GrammarArtifact

namespace Format

theorem Tagged.bytes_ne_nil {bytes : Bytes} (h : Tagged bytes) : bytes ≠ [] := by
  rintro rfl
  exact absurd h.1 (by decide)

end Format

namespace Loader

open Format

variable {loader loader' : Loader} {artifact : Region} {l l' : Language} {e : LoadError}

/-! ## One artifact, several loaders -/

theorem load_of_tagged (loader : Loader) (htagged : Tagged artifact.bytes) :
    loader.load (some artifact) = (do
      ensure (tag artifact.bytes ∈ loader.versions)
        (.incompatible (tag artifact.bytes) loader.versions)
      examine artifact) := by
  rw [load_eq, ensure_of_pos htagged.bytes_ne_nil, (checkTag_eq_ok (u := ())).2 htagged]
  rfl

/-- Loaders that accept the version give the same answer. -/
theorem load_of_mem (htagged : Tagged artifact.bytes)
    (hmem : tag artifact.bytes ∈ loader.versions) :
    loader.load (some artifact) = examine artifact := by
  rw [load_of_tagged loader htagged, ensure_of_pos hmem]
  rfl

theorem load_of_not_mem (htagged : Tagged artifact.bytes)
    (hmem : tag artifact.bytes ∉ loader.versions) : loader.load (some artifact) =
      .error (.incompatible (tag artifact.bytes) loader.versions) := by
  rw [load_of_tagged loader htagged, ensure_of_neg hmem]
  rfl

/-- Without a version, all loaders give the same answer. -/
theorem load_of_not_tagged (htagged : ¬Tagged artifact.bytes) (loader loader' : Loader) :
    loader.load (some artifact) = loader'.load (some artifact) := by
  rw [load_eq, load_eq]
  refine bind_congr fun _ => ?_
  cases htag : checkTag artifact.bytes with
  | error e => rfl
  | ok u => exact absurd (checkTag_eq_ok.1 htag) htagged

/-- Behind the range only defects are found. -/
theorem defective_of_examine (h : examine artifact = .error e) : ∃ d, e = .defective d := by
  unfold examine at h
  cases hframe : checkFrame artifact.bytes with
  | error fault =>
    rw [hframe] at h
    exact ⟨.header fault, (Except.error.inj h).symm⟩
  | ok u =>
    rw [hframe, mapError_ok, ok_bind] at h
    cases hcheck : (header artifact.bytes).check artifact.bytes with
    | error d =>
      rw [hcheck] at h
      exact ⟨d, (Except.error.inj h).symm⟩
    | ok name =>
      rw [hcheck] at h
      nomatch h

theorem load_eq_incompatible (htagged : Tagged artifact.bytes) {found : UInt32}
    {expected : VersionRange} :
    loader.load (some artifact) = .error (.incompatible found expected) ↔
      tag artifact.bytes ∉ loader.versions ∧ found = tag artifact.bytes ∧
        expected = loader.versions := by
  by_cases hmem : tag artifact.bytes ∈ loader.versions
  · rw [load_of_mem htagged hmem]
    constructor
    · intro h
      obtain ⟨d, hd⟩ := defective_of_examine h
      nomatch hd
    · intro h
      exact absurd hmem h.1
  · rw [load_of_not_mem htagged hmem]
    constructor
    · intro h
      cases h
      exact ⟨hmem, rfl, rfl⟩
    · rintro ⟨-, rfl, rfl⟩
      rfl

/-- A wider range changes no answer but the one about the version. -/
theorem load_widen (hsub : ∀ v, v ∈ loader.versions → v ∈ loader'.versions)
    (h : ∀ found expected, loader.load (some artifact) ≠ .error (.incompatible found expected)) :
    loader'.load (some artifact) = loader.load (some artifact) := by
  by_cases htagged : Tagged artifact.bytes
  · by_cases hmem : tag artifact.bytes ∈ loader.versions
    · rw [load_of_mem htagged hmem, load_of_mem htagged (hsub _ hmem)]
    · exact absurd (load_of_not_mem htagged hmem) (h _ _)
  · exact load_of_not_tagged htagged loader' loader

/-- An artifact has one language at most, whatever the loader. -/
theorem load_unique (hl : loader.load (some artifact) = .ok l)
    (hl' : loader'.load (some artifact) = .ok l') : l = l' := by
  obtain ⟨hdecode, -, hcheck, hartifact⟩ := load_eq_ok.1 hl
  obtain ⟨hdecode', -, hcheck', hartifact'⟩ := load_eq_ok.1 hl'
  obtain ⟨artifact, header, name⟩ := l
  obtain ⟨artifact', header', name'⟩ := l'
  obtain rfl : header = header' := Except.ok.inj (hdecode.symm.trans hdecode')
  obtain rfl : name = name' := Except.ok.inj (hcheck.symm.trans hcheck')
  obtain rfl : artifact = artifact' := hartifact.trans hartifact'.symm
  rfl

/-! ## The gate -/

/-- How the loads of one artifact by different loaders hang together. -/
structure VersionGate (artifact : Region) : Prop where
  empty : artifact.bytes = [] → ∀ loader : Loader, loader.load (some artifact) = .error .missing
  short : artifact.bytes ≠ [] → artifact.bytes.length < 12 → ∀ loader : Loader,
    loader.load (some artifact) = .error (.ofHeader (.truncated 12 artifact.bytes.length))
  foreign : 12 ≤ artifact.bytes.length → ¬Bytes.ofText "TSLANGv1" <+: artifact.bytes →
    ∀ loader : Loader, loader.load (some artifact) = .error (.ofHeader .badMagic)
  /-- A version outside of the range is what is reported, whatever follows the version. -/
  incompatible : Tagged artifact.bytes → ∀ (loader : Loader) found expected,
    loader.load (some artifact) = .error (.incompatible found expected) ↔
      tag artifact.bytes ∉ loader.versions ∧ found = tag artifact.bytes ∧
        expected = loader.versions
  compatible : Tagged artifact.bytes → ∀ loader loader' : Loader,
    tag artifact.bytes ∈ loader.versions → tag artifact.bytes ∈ loader'.versions →
      loader.load (some artifact) = loader'.load (some artifact)
  /-- The narrowest and the widest range that hold the version. -/
  extremes : Tagged artifact.bytes → ∀ loader : Loader, tag artifact.bytes ∈ loader.versions →
    loader.load (some artifact) = (⟨.exact (tag artifact.bytes)⟩ : Loader).load (some artifact) ∧
    loader.load (some artifact) = (⟨.full⟩ : Loader).load (some artifact)
  widened : ∀ loader loader' : Loader, (∀ v, v ∈ loader.versions → v ∈ loader'.versions) →
    (∀ l, loader.load (some artifact) = .ok l → loader'.load (some artifact) = .ok l) ∧
    ∀ d, loader.load (some artifact) = .error (.defective d) →
      loader'.load (some artifact) = .error (.defective d)
  inRange : ∀ (loader : Loader) l, loader.load (some artifact) = .ok l →
    l.version ∈ loader.versions
  executable : ∀ (runtime : Runtime) l, runtime.loader.load (some artifact) = .ok l →
    l.version ∈ runtime.versions
  /-- The two languages are equal as values, so every accessor agrees, and they are the same. -/
  unique : ∀ (loader loader' : Loader) l l', loader.load (some artifact) = .ok l →
    loader'.load (some artifact) = .ok l' → l = l' ∧ (l == l') = true

theorem versionGate (artifact : Region) : VersionGate artifact where
  empty hnil loader := by
    rw [load_eq, ensure_of_neg (not_not_intro hnil)]
    rfl
  short hne hshort loader := by
    rw [load_eq, ensure_of_pos hne, checkTag, ensure_of_neg (Nat.not_le.2 hshort)]
    rfl
  foreign hlength hmagic loader := by
    have hne : artifact.bytes ≠ [] := List.length_pos_iff.1 (by omega)
    rw [load_eq, ensure_of_pos hne, checkTag, ensure_of_pos hlength, ensure_of_neg hmagic]
    rfl
  incompatible htagged loader found expected := load_eq_incompatible htagged
  compatible htagged loader loader' hmem hmem' := by
    rw [load_of_mem htagged hmem, load_of_mem htagged hmem']
  extremes htagged loader hmem := by
    have hexact := @load_of_mem ⟨.exact (tag artifact.bytes)⟩ artifact htagged
      (VersionRange.mem_exact.2 rfl)
    have hfull := @load_of_mem ⟨.full⟩ artifact htagged VersionRange.mem_full
    rw [load_of_mem htagged hmem, hexact, hfull]
    exact ⟨rfl, rfl⟩
  widened loader loader' hsub := by
    constructor
    · intro l hl
      rw [load_widen hsub (by simp [hl]), hl]
    · intro d hd
      rw [load_widen hsub (by simp [hd]), hd]
  inRange loader l hl := (load_eq_ok.1 hl).2.1
  executable runtime l hl := (load_eq_ok.1 hl).2.1
  unique loader loader' l l' hl hl' := by
    obtain rfl := load_unique hl hl'
    exact ⟨rfl, decide_eq_true (Region.SameMemory.refl _)⟩

set_option maxRecDepth 4000 in
/-- An artifact of version 14, met by a loader for version 13 and by two that accept it and give
the same language for it. -/
theorem versionGate_straight : ∃ bytes, Draft.straight.encode = .ok bytes ∧
    (⟨.exact 13⟩ : Loader).load (some (.whole 0 bytes)) =
      .error (.incompatible 14 (.exact 13)) ∧
    (default : Loader).load (some (.whole 0 bytes)) =
      (⟨.full⟩ : Loader).load (some (.whole 0 bytes)) ∧
    ∃ l, (⟨.full⟩ : Loader).load (some (.whole 0 bytes)) = .ok l ∧ l.version = 14 := by
  obtain ⟨bytes, henc, htagged, htag, l, hl, hversion⟩ : ∃ bytes,
      Draft.straight.encode = .ok bytes ∧ Tagged bytes ∧ tag bytes = 14 ∧
      ∃ l, (default : Loader).load (some (.whole 0 bytes)) = .ok l ∧ l.version = 14 :=
    ⟨_, rfl, ⟨by decide, by decide⟩, rfl, _, rfl, rfl⟩
  have hgate := versionGate (.whole 0 bytes)
  refine ⟨bytes, henc, ?_, (hgate.extremes htagged default ?_).2, l, ?_, hversion⟩
  · refine (hgate.incompatible htagged ⟨.exact 13⟩ 14 (.exact 13)).2 ⟨?_, htag.symm, rfl⟩
    show tag bytes ∉ VersionRange.exact 13
    rw [htag]
    decide
  · show tag bytes ∈ VersionRange.supported
    rw [htag]
    decide
  · exact (hgate.widened default ⟨.full⟩ fun _ _ => VersionRange.mem_full).1 l hl

end Loader

end GrammarArtifact
