import GrammarArtifact.Loader
import GrammarArtifact.Proofs.HeaderDecoding

/-! The stages of a load. The version that is read first is the one of the header, so a load whose
header decodes comes down to the range and the structure (`Loader.load_of_decode`). -/

namespace GrammarArtifact

namespace Loader

variable {loader : Loader} {artifact : Region} {h : Header} {l : Language}

theorem bytes_ne_nil_of_decode (hh : Header.decode artifact.bytes = .ok h) :
    artifact.bytes ≠ [] := by
  have hpre := Header.decode_eq_ok_iff.1 hh
  intro hnil
  rw [hnil, List.prefix_nil] at hpre
  exact Header.encode_ne_nil _ hpre

theorem load_of_decode (hh : Header.decode artifact.bytes = .ok h)
    (hmem : h.version ∈ loader.versions) : loader.load (some artifact) =
      (h.check artifact.bytes).mapError .defective >>= fun name => .ok ⟨artifact, h, name⟩ := by
  have hversion := Header.decodeVersion_of_encode (Header.decode_eq_ok_iff.1 hh)
  rw [load, ensure_of_pos (bytes_ne_nil_of_decode hh), hversion, hh]
  simp only [ok_bind, mapError_ok, ensure_of_pos hmem]
  rfl

theorem load_eq_ok : loader.load (some artifact) = .ok l ↔
    Header.decode artifact.bytes = .ok l.header ∧ l.header.version ∈ loader.versions ∧
      l.header.check artifact.bytes = .ok l.name ∧ l.artifact = artifact := by
  constructor
  · intro hl
    simp only [load, bind_eq_ok, ensure_eq_ok, exists_and_left, exists_const, mapError_eq_ok,
      pure_eq_ok] at hl
    obtain ⟨-, v, hv, hmem, h, hh, name, hname, rfl⟩ := hl
    have hversion := Header.decodeVersion_of_encode (Header.decode_eq_ok_iff.1 hh)
    obtain rfl : v = h.version := Except.ok.inj (hv.symm.trans hversion)
    exact ⟨hh, hmem, hname, rfl⟩
  · rintro ⟨hh, hmem, hname, rfl⟩
    rw [load_of_decode hh hmem, hname]
    rfl

/-- Bytes that lie elsewhere in memory are loaded as the same language, apart from where it lies. -/
theorem load_moved {artifact' : Region} (h : artifact'.bytes = artifact.bytes) :
    loader.load (some artifact') =
      (loader.load (some artifact)).map fun l => { l with artifact := artifact' } := by
  simp only [load, h, map_bind_except]
  rfl

/-- A loaded language has the header that its artifact was written with. -/
theorem header_of_load (hl : loader.load (some artifact) = .ok l) {rest : Bytes}
    (hbytes : h.encode ++ rest = artifact.bytes) : l.header = h := by
  have hdecode := (load_eq_ok.1 hl).1
  rw [← hbytes, Header.decode_encode] at hdecode
  exact (Except.ok.inj hdecode).symm

theorem section?_eq_contents? (hl : loader.load (some artifact) = .ok l) (s : Section) :
    l.section? s = l.header.contents? artifact.bytes s := by
  rw [Language.section?, Language.bytes, (load_eq_ok.1 hl).2.2.2]

end Loader

end GrammarArtifact
