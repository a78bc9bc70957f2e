import GrammarArtifact.Bytes

/-! Numbers as bytes, least significant byte first. -/

namespace GrammarArtifact

namespace LittleEndian

/-- The lowest `width` bytes of a number. -/
def encode : (width : Nat) → Nat → Bytes
  | 0, _ => []
  | width + 1, n => UInt8.ofNat n :: encode width (n / 256)

/-- The number that a byte string denotes. -/
def decode : Bytes → Nat
  | [] => 0
  | b :: rest => b.toNat + 256 * decode rest

@[simp] theorem length_encode (width n : Nat) : (encode width n).length = width := by
  induction width generalizing n with
  | zero => rfl
  | succ width ih => simp [encode, ih]

def word16 (n : Nat) : Bytes := encode 2 n

def word32 (n : UInt32) : Bytes := encode 4 n.toNat

def word32? (bytes : Bytes) (offset : Nat) : Option UInt32 :=
  (bytes.slice? offset 4).map fun data => UInt32.ofNat (decode data)

@[simp] theorem length_word16 (n : Nat) : (word16 n).length = 2 := length_encode ..

@[simp] theorem length_word32 (n : UInt32) : (word32 n).length = 4 := length_encode ..

end LittleEndian

end GrammarArtifact
