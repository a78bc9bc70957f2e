import GrammarArtifact.Bytes.LittleEndian
import Mathlib.Algebra.Group.Nat.Defs

/-! Numbers and bytes. `decode_encode` and `encode_decode` say that a number below `256 ^ width` and
a byte string of that width determine each other. -/

namespace GrammarArtifact

namespace LittleEndian

theorem decode_lt (bytes : Bytes) : decode bytes < 256 ^ bytes.length := by
  induction bytes with
  | nil => simp [decode]
  | cons b rest ih =>
    have := b.toNat_lt
    simp only [decode, List.length_cons, Nat.pow_succ]
    omega

theorem decode_encode {width n : Nat} (h : n < 256 ^ width) : decode (encode width n) = n := by
  induction width generalizing n with
  | zero => simp_all [encode, decode]
  | succ width ih =>
    have : n / 256 < 256 ^ width := by
      rw [Nat.pow_succ] at h
      exact Nat.div_lt_of_lt_mul (by omega)
    simp [encode, decode, ih this]
    omega

@[simp] theorem encode_decode (bytes : Bytes) : encode bytes.length (decode bytes) = bytes := by
  induction bytes with
  | nil => rfl
  | cons b rest ih =>
    have hb := b.toNat_lt
    have hdiv : (b.toNat + 256 * decode rest) / 256 = decode rest := by omega
    have hmod : UInt8.ofNat (b.toNat + 256 * decode rest) = b := by
      apply UInt8.toNat_inj.1
      simp
    simp [encode, decode, hdiv, hmod, ih]

/-! ## Words -/

variable {bytes : Bytes} {offset : Nat} {n : UInt32}

theorem word32_ne_nil : word32 n ≠ [] := List.ne_nil_of_length_eq_add_one (length_word32 n)

theorem decode_word32 : decode (word32 n) = n.toNat :=
  decode_encode (by simpa using n.toNat_lt)

theorem isSome_word32? :
    (word32? bytes offset).isSome ↔ offset + 4 ≤ bytes.length := by
  simp [word32?, Bytes.slice?]

/-- A word that was read is written back as the bytes it was read from. -/
theorem word32_of_word32? (h : word32? bytes offset = some n) :
    word32 n = (bytes.drop offset).take 4 := by
  obtain ⟨data, hs, rfl⟩ := Option.map_eq_some_iff.1 h
  have hlen := Bytes.length_of_slice? hs
  obtain ⟨_, hdata⟩ := Bytes.slice?_eq_some_iff.1 hs
  have hlt : decode data < 2 ^ 32 := by simpa [hlen] using decode_lt data
  have hnat : (UInt32.ofNat (decode data)).toNat = decode data := by simp; omega
  rw [word32, hnat, ← hdata]
  simpa [hlen] using encode_decode data

/-! ## Sequences of numbers -/

/-- The numbers of two bytes each that a byte string is made of. -/
def halves? : Bytes → Option (List Nat)
  | [] => some []
  | [_] => none
  | a :: b :: rest => (halves? rest).map (decode [a, b] :: ·)

theorem halves?_word16_append {n : Nat} (h : n < 65536) (rest : Bytes) :
    halves? (word16 n ++ rest) = (halves? rest).map (n :: ·) := by
  have hdecode : decode (word16 n) = n := decode_encode h
  show (halves? rest).map (decode (word16 n) :: ·) = _
  rw [hdecode]

/-- Numbers of sixteen bits are read as they were written. -/
theorem halves?_flatMap_word16 {numbers : List Nat} (h : ∀ n ∈ numbers, n < 65536) :
    halves? (numbers.flatMap word16) = some numbers := by
  induction numbers with
  | nil => rfl
  | cons n rest ih =>
    obtain ⟨hn, hrest⟩ := List.forall_mem_cons.1 h
    rw [List.flatMap_cons, halves?_word16_append hn, ih hrest, Option.map_some]

/-- Numbers that were read are written as they were. -/
theorem flatMap_word16_of_halves? {bytes : Bytes} {numbers : List Nat}
    (h : halves? bytes = some numbers) : numbers.flatMap word16 = bytes := by
  fun_induction halves? bytes generalizing numbers with
  | case1 =>
    obtain rfl := Option.some.inj h
    rfl
  | case2 => nomatch h
  | case3 a b rest ih =>
    obtain ⟨later, hlater, rfl⟩ := Option.map_eq_some_iff.1 h
    have hword : word16 (decode [a, b]) = [a, b] := encode_decode [a, b]
    rw [List.flatMap_cons, hword, ih hlater]
    rfl

end LittleEndian

end GrammarArtifact
