import GrammarArtifact.Proofs.Loading
import GrammarArtifact.Proofs.Structure

/-! Slices are made of the bytes at their positions. Two byte strings that agree from one position
to another have the same slice there (`Bytes.slice?_congr`); behind a header that was decoded, the
contents of a section are a slice of the payload and of the artifact itself. A language that was
loaded has these slices for its sections (`Loader.section?_of_load`), and no section of its version
is without one (`Loader.exists_section`). -/

namespace GrammarArtifact

namespace Bytes

variable {a b : Bytes} {offset length n : Nat}

/-- Two byte strings have the same bytes from one position up to another. -/
def Agree (a b : Bytes) (first last : Nat) : Prop := ∀ i, first ≤ i → i < last → a[i]? = b[i]?

theorem Agree.symm {first last : Nat} (h : Agree a b first last) : Agree b a first last :=
  fun i hfirst hlast => (h i hfirst hlast).symm

theorem Agree.mono {first first' last last' : Nat} (h : Agree a b first last)
    (hfirst : first ≤ first') (hlast : last' ≤ last) : Agree a b first' last' :=
  fun i hi hi' => h i (Nat.le_trans hfirst hi) (Nat.lt_of_lt_of_le hi' hlast)

theorem Agree.drop {first last : Nat} (h : Agree a b (n + first) (n + last)) :
    Agree (a.drop n) (b.drop n) first last := by
  intro i hfirst hlast
  rw [List.getElem?_drop, List.getElem?_drop]
  exact h (n + i) (Nat.add_le_add_left hfirst n) (Nat.add_lt_add_left hlast n)

theorem Agree.take_drop (h : Agree a b offset (offset + length)) :
    (a.drop offset).take length = (b.drop offset).take length := by
  apply List.ext_getElem?
  intro i
  rw [List.getElem?_take, List.getElem?_take]
  split
  · next hi =>
    rw [List.getElem?_drop, List.getElem?_drop]
    exact h (offset + i) (Nat.le_add_right _ _) (Nat.add_lt_add_left hi offset)
  · rfl

theorem agree_of_take_eq (h : a.take n = b.take n) : Agree a b 0 n := by
  intro i _ hi
  have hget := congrArg (·[i]?) h
  simp only [List.getElem?_take, if_pos hi] at hget
  exact hget

/-- Where both byte strings reach far enough, or neither does, agreement gives the same slice. -/
theorem slice?_congr (hreach : offset + length ≤ a.length ↔ offset + length ≤ b.length)
    (h : Agree a b offset (offset + length)) : a.slice? offset length = b.slice? offset length := by
  unfold slice?
  simp only [hreach, h.take_drop]

theorem slice?_drop (h : n ≤ b.length) :
    slice? (b.drop n) offset length = b.slice? (n + offset) length := by
  have hreach : offset + length ≤ (b.drop n).length ↔ n + offset + length ≤ b.length := by
    rw [List.length_drop]
    omega
  unfold slice?
  simp only [hreach, List.drop_drop]

/-- A slice is there exactly when the byte string reaches its end. -/
theorem isSome_slice? : (b.slice? offset length).isSome ↔ offset + length ≤ b.length := by
  unfold slice?
  split
  · next h => exact iff_of_true rfl h
  · next h => exact iff_of_false Bool.false_ne_true h

end Bytes

namespace Header

variable {h : Header} {bytes : Bytes} {s : Section} {e : Extent}

/-- The payload is what follows the header, if anything does. -/
theorem payload_eq_drop (h : Header) (bytes : Bytes) :
    h.payload bytes = bytes.drop h.payloadOffset := by
  unfold payload Bytes.drop?
  split
  · rfl
  · next hlt => exact (List.drop_eq_nil_of_le (Nat.le_of_not_le hlt)).symm

theorem length_payload (h : Header) (bytes : Bytes) :
    (h.payload bytes).length = bytes.length - h.payloadOffset := by
  rw [payload_eq_drop, List.length_drop]

/-! ## Headers that were decoded -/

theorem payloadOffset_le (hh : decode bytes = .ok h) : h.payloadOffset ≤ bytes.length := by
  rw [← length_encode]
  exact (decode_eq_ok_iff.1 hh).length_le

theorem contents?_of_decode (hh : decode bytes = .ok h) (s : Section) :
    h.contents? bytes s = (h.extent? s).bind fun e => e.slice? (h.payload bytes) := by
  have hdrop : bytes.drop? h.payloadOffset = some (h.payload bytes) := by
    rw [Bytes.drop?, if_pos (payloadOffset_le hh), payload_eq_drop]
  rw [contents?, hdrop]
  rfl

/-- A slice of the payload is a slice of the artifact, behind the header. -/
theorem slice?_payload (hh : decode bytes = .ok h) (e : Extent) : e.slice? (h.payload bytes) =
    bytes.slice? (h.payloadOffset + e.offset.toNat) e.length.toNat := by
  rw [Extent.slice?, payload_eq_drop, Bytes.slice?_drop (payloadOffset_le hh)]

end Header

/-! ## Languages that were loaded -/

namespace Loader

variable {loader : Loader} {artifact : Region} {l : Language}

theorem sound_of_load (hl : loader.load (some artifact) = .ok l) :
    l.header.Sound (l.header.payload artifact.bytes) :=
  (Header.check_eq_ok.1 (load_eq_ok.1 hl).2.2.1).1

theorem section?_of_load (hl : loader.load (some artifact) = .ok l) (s : Section) :
    l.section? s =
      (l.header.extent? s).bind fun e => e.slice? (l.header.payload artifact.bytes) := by
  rw [section?_eq_contents? hl, Header.contents?_of_decode (load_eq_ok.1 hl).1]

/-- Each section of the version is the slice that was checked, and it has the right shape. -/
theorem exists_section (hl : loader.load (some artifact) = .ok l)
    (hs : s ∈ Section.ofVersion l.version) : ∃ e data, l.header.extent? s = some e ∧
      e.slice? (l.header.payload artifact.bytes) = some data ∧ l.section? s = some data ∧
      l.counts.Fits data s := by
  cases he : l.header.extent? s with
  | none => exact absurd hs (Header.extent?_eq_none_iff.1 he)
  | some e =>
    obtain ⟨data, hslice, hfits⟩ := (sound_of_load hl).fits (s, e) (Header.mem_sections_iff.2 he)
    refine ⟨e, data, rfl, hslice, ?_, hfits⟩
    rw [section?_of_load hl, he, Option.bind_some, hslice]

end Loader

end GrammarArtifact
