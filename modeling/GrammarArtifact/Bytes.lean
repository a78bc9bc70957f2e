/-! Byte strings. Offsets and lengths are natural numbers, so a range that leaves the string is seen
as such and never wraps. -/

namespace GrammarArtifact

abbrev Bytes := List UInt8

namespace Bytes

/-- The `length` bytes from `offset` on, if the string reaches that far. -/
def slice? (bytes : Bytes) (offset length : Nat) : Option Bytes :=
  if offset + length ≤ bytes.length then some ((bytes.drop offset).take length) else none

/-- The bytes from `offset` on, if the string reaches that far. -/
def drop? (bytes : Bytes) (offset : Nat) : Option Bytes :=
  if offset ≤ bytes.length then some (bytes.drop offset) else none

/-- The UTF-8 form of a text. -/
def ofText (s : String) : Bytes := s.toUTF8.data.toList

/-- The text that a byte string encodes, if it is valid UTF-8. -/
def text? (bytes : Bytes) : Option String := String.fromUTF8? ⟨bytes.toArray⟩

def zeros (length : Nat) : Bytes := List.replicate length 0

section

variable {bytes data : Bytes} {offset length : Nat}

theorem slice?_eq_some_iff :
    bytes.slice? offset length = some data ↔
      offset + length ≤ bytes.length ∧ data = (bytes.drop offset).take length := by
  unfold slice?; split
  · simp [*, eq_comm]
  · simp [*]

theorem slice?_eq_none_iff :
    bytes.slice? offset length = none ↔ bytes.length < offset + length := by
  unfold slice?; split <;> simp_all

theorem length_of_slice? (h : bytes.slice? offset length = some data) : data.length = length := by
  obtain ⟨_, rfl⟩ := slice?_eq_some_iff.1 h
  simp; omega

/-- Parts of one width make a string of as many widths. -/
theorem length_flatMap_of_length {α : Type} {f : α → Bytes} {width : Nat}
    (h : ∀ a, (f a).length = width) (items : List α) :
    (items.flatMap f).length = items.length * width := by
  induction items with
  | nil => simp
  | cons a rest ih =>
    rw [List.flatMap_cons, List.length_append, h, ih, List.length_cons, Nat.succ_mul, Nat.add_comm]

@[simp] theorem length_zeros : (zeros length).length = length := List.length_replicate

@[simp] theorem length_ofText (s : String) : (ofText s).length = s.utf8ByteSize := rfl

end

end Bytes

end GrammarArtifact
