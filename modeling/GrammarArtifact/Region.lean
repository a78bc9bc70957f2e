import GrammarArtifact.Bytes

/-! Byte strings with an identity. Two regions may hold equal bytes and still be different parts of
memory; `Region.SameMemory` tells them apart. -/

namespace GrammarArtifact

/-- The bytes of a buffer from position `start` on, as far as they go. -/
structure Region where
  buffer : Nat
  start : Nat
  bytes : Bytes
  deriving DecidableEq

namespace Region

def whole (buffer : Nat) (bytes : Bytes) : Region := ⟨buffer, 0, bytes⟩

def length (r : Region) : Nat := r.bytes.length

/-- The part of a region between two positions. It shares the region's memory. -/
def slice (r : Region) (first last : Nat) : Region where
  buffer := r.buffer
  start := r.start + first
  bytes := (r.bytes.drop first).take (last - first)

/-- Two regions start at the same place and are equally long. -/
def SameMemory (a b : Region) : Prop :=
  a.buffer = b.buffer ∧ a.start = b.start ∧ a.length = b.length

instance (a b : Region) : Decidable (SameMemory a b) :=
  inferInstanceAs (Decidable (_ ∧ _ ∧ _))

theorem SameMemory.refl (a : Region) : SameMemory a a := ⟨rfl, rfl, rfl⟩

theorem SameMemory.symm {a b : Region} (h : SameMemory a b) : SameMemory b a :=
  ⟨h.1.symm, h.2.1.symm, h.2.2.symm⟩

theorem SameMemory.trans {a b c : Region} (h : SameMemory a b) (h' : SameMemory b c) :
    SameMemory a c :=
  ⟨h.1.trans h'.1, h.2.1.trans h'.2.1, h.2.2.trans h'.2.2⟩

end Region

end GrammarArtifact
