import GrammarArtifact.Bytes

/-! Tables of NUL-terminated strings. `count` looks at the terminators only; `split` gives back the
strings of a table whose strings hold no NUL. -/

namespace GrammarArtifact

namespace StringTable

/-- The character that ends a string. Its UTF-8 form is the zero byte. -/
def nul : Char := Char.ofNat 0

/-- The strings one after another, each followed by a NUL. -/
def encode (strings : List Bytes) : Bytes := strings.flatMap fun s => s ++ [0]

def lengthFor : List String → Nat
  | [] => 0
  | text :: rest => text.utf8ByteSize + 1 + lengthFor rest

/-- The number of terminators, unless the table ends inside a string. -/
def count (data : Bytes) : Option Nat :=
  if data.getLast?.all (· == 0) then some (data.count 0) else none

/-- The strings of a table, in order; what follows the last NUL is dropped. -/
def split : Bytes → List Bytes
  | [] => []
  | b :: rest =>
    if b = 0 then [] :: split rest
    else
      match split rest with
      | [] => []
      | s :: later => (b :: s) :: later

@[simp] theorem encode_nil : encode [] = [] := rfl

@[simp] theorem encode_cons (s : Bytes) (rest : List Bytes) :
    encode (s :: rest) = s ++ 0 :: encode rest := by
  simp [encode]

theorem length_encode_ofText (texts : List String) :
    (encode (texts.map Bytes.ofText)).length = lengthFor texts := by
  induction texts with
  | nil => rfl
  | cons text rest ih => simp [ih, lengthFor]; omega

theorem split_encode {strings : List Bytes} (h : ∀ s ∈ strings, 0 ∉ s) :
    split (encode strings) = strings := by
  induction strings with
  | nil => rfl
  | cons s rest ih =>
    have hrest := ih fun t ht => h t (by simp [ht])
    have hs : 0 ∉ s := h s (by simp)
    rw [encode_cons]
    clear h ih
    induction s with
    | nil => simp [split, hrest]
    | cons b s ih =>
      have hb : b ≠ 0 := fun hb => hs (by simp [hb])
      simp [split, hb, ih fun hz => hs (by simp [hz])]

end StringTable

end GrammarArtifact
