import GrammarArtifact.Header
import GrammarArtifact.Proofs.LittleEndian

/-! Which bytes stand where. `Bytes.Holds` relates a byte string to the data at an offset without
reading it; a word is read exactly where its four bytes stand (`Header.word_eq_ok`). -/

namespace GrammarArtifact

namespace Bytes

/-- The bytes from `offset` on start with `data`. -/
def Holds (bytes : Bytes) (offset : Nat) (data : Bytes) : Prop := data <+: bytes.drop offset

variable {bytes data data' : Bytes} {offset : Nat}

theorem holds_zero : bytes.Holds 0 data ↔ data <+: bytes := Iff.rfl

theorem holds_nil : bytes.Holds offset [] := List.nil_prefix

theorem holds_iff_take : bytes.Holds offset data ↔ (bytes.drop offset).take data.length = data := by
  rw [Holds, List.prefix_iff_eq_take, eq_comm]

/-- Data that is not empty ends within the byte string. -/
theorem Holds.le_length (h : bytes.Holds offset data) (hne : data ≠ []) :
    offset + data.length ≤ bytes.length := by
  have hpos : 0 < data.length := List.length_pos_iff.2 hne
  have := h.length_le
  rw [List.length_drop] at this
  omega

/-- Data in two parts stands as its first part with the second one right behind it. -/
theorem holds_append : bytes.Holds offset (data ++ data') ↔
    bytes.Holds offset data ∧ bytes.Holds (offset + data.length) data' := by
  constructor
  · rintro ⟨after, h⟩
    refine ⟨⟨data' ++ after, by rw [← h, List.append_assoc]⟩, ⟨after, ?_⟩⟩
    rw [← List.drop_drop, ← h, List.append_assoc, List.drop_left]
  · rintro ⟨⟨after, h⟩, ⟨after', h'⟩⟩
    rw [← List.drop_drop, ← h, List.drop_left] at h'
    exact ⟨after', by rw [← h, ← h', List.append_assoc]⟩

theorem slice?_eq_some_iff_holds {length : Nat} (hoff : offset ≤ bytes.length) :
    bytes.slice? offset length = some data ↔ data.length = length ∧ bytes.Holds offset data := by
  rw [slice?_eq_some_iff, holds_iff_take]
  constructor
  · rintro ⟨hle, rfl⟩
    have hlen : ((bytes.drop offset).take length).length = length := by simp; omega
    exact ⟨hlen, by rw [hlen]⟩
  · rintro ⟨rfl, h⟩
    refine ⟨?_, h.symm⟩
    have := congrArg List.length h
    simp at this
    omega

end Bytes

namespace LittleEndian

variable {bytes : Bytes} {offset : Nat} {n : UInt32}

/-- A word can be read where its bytes stand, and nowhere else. -/
theorem word32?_eq_some_iff : word32? bytes offset = some n ↔ bytes.Holds offset (word32 n) := by
  constructor
  · intro h
    rw [Bytes.holds_iff_take, length_word32, word32_of_word32? h]
  · intro h
    have hle := h.le_length word32_ne_nil
    rw [length_word32] at hle
    have hslice : bytes.slice? offset 4 = some (word32 n) :=
      (Bytes.slice?_eq_some_iff_holds (by omega)).2 ⟨length_word32 n, h⟩
    simp [word32?, hslice, decode_word32]

end LittleEndian

namespace Header

open LittleEndian

variable {bytes : Bytes} {offset : Nat} {n : UInt32}

theorem word_eq_ok : word bytes offset = .ok n ↔ bytes.Holds offset (word32 n) := by
  rw [← word32?_eq_some_iff]
  unfold word
  split
  · next h =>
    rw [h]
    exact ⟨fun h => congrArg _ (Except.ok.inj h), fun h => congrArg _ (Option.some.inj h)⟩
  · next h =>
    rw [h]
    exact ⟨fun h => (nomatch h), fun h => (nomatch h)⟩

/-- Reading a word fails only where fewer than four bytes are left. -/
theorem exists_word_eq_ok (h : offset + 4 ≤ bytes.length) : ∃ n, word bytes offset = .ok n := by
  obtain ⟨n, hn⟩ := Option.isSome_iff_exists.1 (isSome_word32?.2 h)
  exact ⟨n, word_eq_ok.2 (word32?_eq_some_iff.1 hn)⟩

end Header

end GrammarArtifact
