/-! Ranges of artifact versions. A range is never empty: `VersionRange.min_le_max` is part of it. -/

namespace GrammarArtifact

/-- The versions from `min` to `max`, both included. -/
structure VersionRange where
  min : UInt32
  max : UInt32
  min_le_max : min ≤ max
  deriving DecidableEq

structure InvertedRange where
  min : UInt32
  max : UInt32
  deriving DecidableEq

namespace InvertedRange

def message (e : InvertedRange) : String :=
  s!"invalid version range: min {e.min} is greater than max {e.max}"

end InvertedRange

namespace VersionRange

def oldestSupported : UInt32 := 13

def newestSupported : UInt32 := 14

def supported : VersionRange := ⟨oldestSupported, newestSupported, by decide⟩

def exact (version : UInt32) : VersionRange := ⟨version, version, UInt32.le_refl _⟩

def full : VersionRange := ⟨0, 4294967295, by decide⟩

def ofBounds (min max : UInt32) : Except InvertedRange VersionRange :=
  if h : min ≤ max then .ok ⟨min, max, h⟩ else .error ⟨min, max⟩

instance : Inhabited VersionRange := ⟨supported⟩

instance : Membership UInt32 VersionRange := ⟨fun r v => r.min ≤ v ∧ v ≤ r.max⟩

instance (v : UInt32) (r : VersionRange) : Decidable (v ∈ r) :=
  inferInstanceAs (Decidable (r.min ≤ v ∧ v ≤ r.max))

/-- A range of one version is written as that version. -/
def display (r : VersionRange) : String :=
  if r.min = r.max then toString r.min else s!"{r.min}..={r.max}"

instance : ToString VersionRange := ⟨display⟩

variable {min max version : UInt32} {r : VersionRange}

theorem mem_iff : version ∈ r ↔ r.min ≤ version ∧ version ≤ r.max := Iff.rfl

@[simp] theorem mem_exact {v : UInt32} : version ∈ exact v ↔ version = v :=
  ⟨fun h => UInt32.le_antisymm h.2 h.1, fun h => h ▸ ⟨UInt32.le_refl _, UInt32.le_refl _⟩⟩

@[simp] theorem mem_full : version ∈ full := by
  refine ⟨UInt32.le_iff_toNat_le.2 (Nat.zero_le _), UInt32.le_iff_toNat_le.2 ?_⟩
  exact Nat.le_of_lt_succ version.toNat_lt

theorem ofBounds_eq_ok : ofBounds min max = .ok r ↔ r.min = min ∧ r.max = max := by
  unfold ofBounds
  constructor
  · split
    · rintro ⟨⟩; exact ⟨rfl, rfl⟩
    · nofun
  · rintro ⟨rfl, rfl⟩; simp [r.min_le_max]

theorem ofBounds_eq_error {e : InvertedRange} :
    ofBounds min max = .error e ↔ max < min ∧ e = ⟨min, max⟩ := by
  unfold ofBounds; split
  · have := UInt32.not_lt.2 ‹min ≤ max›; simp [this]
  · have := UInt32.not_le.1 ‹¬min ≤ max›; simp [this, eq_comm]

end VersionRange

end GrammarArtifact
