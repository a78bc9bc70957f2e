import GrammarArtifact.Proofs.Format
import GrammarArtifact.Proofs.Loading

/-! The stages of reading an artifact, each with its error. Every word that a reader asks for is
there once the length has been checked, so decoding comes down to conditions on the bytes
(`Format.decode_eq`). A load puts the range of versions between the two halves of these conditions
and does not look at the range again (`Loader.load_eq`). -/

namespace GrammarArtifact

namespace Format

variable {bytes : Bytes}

/-- The version of a byte string that starts with the magic. -/
def tag (bytes : Bytes) : UInt32 := (header bytes).version

/-- The version of a byte string can be read. -/
def Tagged (bytes : Bytes) : Prop := 12 ≤ bytes.length ∧ Bytes.ofText "TSLANGv1" <+: bytes

/-- The conditions on the bytes up to the version. -/
def checkTag (bytes : Bytes) : Except HeaderError Unit := do
  ensure (12 ≤ bytes.length) (.truncated 12 bytes.length)
  ensure (Bytes.ofText "TSLANGv1" <+: bytes) .badMagic

/-- The conditions on the rest of the header. Its length depends on the version. -/
def checkFrame (bytes : Bytes) : Except HeaderError Unit := do
  ensure (40 ≤ bytes.length) (.truncated 40 bytes.length)
  ensure (word bytes 36 = sectionCount bytes)
    (.sectionCount (tag bytes) (sectionCount bytes) (UInt32.ofNat (word bytes 36)))
  ensure (40 + 8 * sectionCount bytes ≤ bytes.length)
    (.truncated (40 + 8 * sectionCount bytes) bytes.length)

theorem checkTag_eq_ok {u : Unit} : checkTag bytes = .ok u ↔ Tagged bytes := by
  simp only [checkTag, Tagged, bind_eq_ok, ensure_eq_ok, exists_and_left, exists_const]

theorem word_eq_ok {offset : Nat} (h : offset + 4 ≤ bytes.length) :
    Header.word bytes offset = .ok (UInt32.ofNat (word bytes offset)) :=
  Header.word_eq_ok.2 (holds_word h)

/-- A byte string with a whole header meets all conditions. -/
theorem Framed.stages (h : Framed bytes) : Tagged bytes ∧ checkFrame bytes = .ok () := by
  obtain ⟨hmagic, hdeclared, hfits⟩ := h
  refine ⟨⟨by omega, hmagic⟩, ?_⟩
  rw [checkFrame, ensure_of_pos (by omega), ensure_of_pos hdeclared, ensure_of_pos hfits]
  rfl

theorem decodeVersion_eq (bytes : Bytes) :
    Header.decodeVersion bytes = checkTag bytes >>= fun _ => .ok (tag bytes) := by
  have hmagic : bytes.take Layout.magic.length = Layout.magic ↔
      Bytes.ofText "TSLANGv1" <+: bytes := by
    rw [magic_eq, List.prefix_iff_eq_take, eq_comm]
  rw [Header.decodeVersion, checkTag, bind_assoc, ensure_congr hmagic]
  refine bind_congr_ok fun _ hlength => bind_congr_ok fun _ _ => ?_
  exact word_eq_ok (ensure_eq_ok.1 hlength)

theorem decode_eq (bytes : Bytes) : Header.decode bytes =
    checkTag bytes >>= fun _ => checkFrame bytes >>= fun _ => .ok (header bytes) := by
  by_cases hframed : Framed bytes
  · obtain ⟨htagged, hframe⟩ := hframed.stages
    rw [decode_eq_ok.2 ⟨hframed, rfl⟩, (checkTag_eq_ok (u := ())).2 htagged, hframe]
    rfl
  -- The same condition is the first to fail on both sides.
  · rw [Header.decode, decodeVersion_eq, bind_assoc]
    refine bind_congr_ok fun _ htag => ?_
    rw [ok_bind, checkFrame, bind_assoc]
    refine bind_congr_ok fun _ hfixed => ?_
    have hword := word_eq_ok (show Layout.sectionCount + 4 ≤ bytes.length from
      ensure_eq_ok.1 hfixed)
    have hcount : (Section.ofVersion (tag bytes)).length = sectionCount bytes :=
      length_ofVersion bytes
    have hneeded : Layout.headerLength (sectionCount bytes) = 40 + 8 * sectionCount bytes :=
      congrArg (40 + ·) (Nat.mul_comm _ _)
    simp only [hword, ok_bind, bind_assoc, toNat_ofNat_word]
    rw [hcount, hneeded]
    refine bind_congr_ok fun _ hdeclared => bind_congr_ok fun _ hfits => ?_
    exact absurd ⟨(checkTag_eq_ok.1 htag).2, ensure_eq_ok.1 hdeclared, ensure_eq_ok.1 hfits⟩ hframed

end Format

namespace Loader

open Format

/-- What a load makes of an artifact once its version is accepted. -/
def examine (artifact : Region) : Except LoadError Language := do
  (checkFrame artifact.bytes).mapError LoadError.ofHeader
  let name ← ((header artifact.bytes).check artifact.bytes).mapError LoadError.defective
  return ⟨artifact, header artifact.bytes, name⟩

/-- The range of versions is looked at once, between the tag and everything else. -/
theorem load_eq (loader : Loader) (artifact : Region) : loader.load (some artifact) = (do
    ensure (artifact.bytes ≠ []) .missing
    (checkTag artifact.bytes).mapError LoadError.ofHeader
    ensure (tag artifact.bytes ∈ loader.versions)
      (.incompatible (tag artifact.bytes) loader.versions)
    examine artifact) := by
  rw [load, decodeVersion_eq, decode_eq]
  refine bind_congr fun _ => ?_
  cases checkTag artifact.bytes with
  | error e => rfl
  | ok u =>
    rw [ok_bind, ok_bind, mapError_bind, bind_assoc]
    rfl

end Loader

end GrammarArtifact
