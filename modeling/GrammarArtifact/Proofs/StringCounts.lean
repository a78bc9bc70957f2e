import GrammarArtifact.Proofs.Structure

/-! Counting strings and writing them. Splitting a table at its terminators gives the only strings
that it can have been written from (`StringTable.Spells.eq_split`), and there are such strings
exactly if nothing comes behind the last terminator. Counting finds their number without taking the
table apart; what it makes of strings that hold terminators of their own is
`Integrity.CountsWritten.written`. -/

namespace GrammarArtifact

namespace StringTable

variable {data : Bytes} {strings strings' : List Bytes} {texts : List String} {n : Nat}

/-- Some strings without terminators of their own spell a table: written one after another, each
with a terminator behind it, they are the table. -/
structure Spells (strings : List Bytes) (data : Bytes) : Prop where
  clean : ∀ s ∈ strings, 0 ∉ s
  written : encode strings = data

theorem Spells.eq_split (h : Spells strings data) : strings = split data := by
  rw [← h.written, split_encode h.clean]

theorem Spells.unique (h : Spells strings data) (h' : Spells strings' data) :
    strings = strings' :=
  h.eq_split.trans h'.eq_split.symm

theorem count_eq_some_iff_spells :
    count data = some n ↔ ∃ strings, strings.length = n ∧ Spells strings data := by
  rw [count_eq_some_iff]
  refine exists_congr fun strings => and_congr_right fun _ => ?_
  exact ⟨fun ⟨clean, written⟩ => ⟨clean, written⟩, fun ⟨clean, written⟩ => ⟨clean, written⟩⟩

theorem not_terminated_iff : ¬Terminated data ↔ data ≠ [] ∧ data.getLast? ≠ some 0 := by
  unfold Terminated
  cases hlast : data.getLast? with
  | none => simp [List.getLast?_eq_none_iff.1 hlast]
  | some b =>
    have hne : data ≠ [] := fun hnil => by simp [hnil] at hlast
    simp [hne]

/-! ## Strings with terminators of their own -/

/-- The number is right when all terminators stand behind the strings. -/
theorem count_encode_eq_length :
    count (encode strings) = some strings.length ↔ ∀ s ∈ strings, 0 ∉ s := by
  rw [count_encode, Option.some.injEq, Nat.add_eq_left, count_zero_flatten_eq_zero]

theorem count_encode_ofText_eq_length :
    count (encode (texts.map Bytes.ofText)) = some texts.length ↔
      ∀ text ∈ texts, nul ∉ text.toList := by
  rw [count_encode_ofText, Option.some.injEq, Nat.add_eq_left, nuls_eq_zero]

end StringTable

namespace Integrity

open StringTable

variable {s : Section} {data : Bytes}

theorem countStrings_eq_error {e : Defect} :
    countStrings s data = .error e ↔ e = .unterminated s ∧ ¬Terminated data := by
  rw [← count_eq_none, countStrings]
  cases count data with
  | none => simp [eq_comm]
  | some n => simp

/-- What counting the strings of a section has to do with writing them. -/
structure CountsWritten (s : Section) : Prop where
  counted : ∀ data n, countStrings s data = .ok n ↔
    ∃ strings, strings.length = n ∧ Spells strings data
  unique : ∀ data strings strings', Spells strings data → Spells strings' data →
    strings = strings'
  unterminated : ∀ data e, countStrings s data = .error e ↔
    e = .unterminated s ∧ data ≠ [] ∧ data.getLast? ≠ some 0
  /-- Any strings, whatever bytes they consist of. -/
  written : ∀ strings : List Bytes,
    countStrings s (encode strings) = .ok (strings.length + strings.flatten.count 0) ∧
    (countStrings s (encode strings) = .ok strings.length ↔ ∀ string ∈ strings, 0 ∉ string)
  /-- Texts, which hold a terminator wherever they hold a null character. -/
  writtenTexts : ∀ texts : List String,
    countStrings s (encode (texts.map Bytes.ofText)) =
      .ok (texts.length + (texts.flatMap String.toList).count nul) ∧
    (countStrings s (encode (texts.map Bytes.ofText)) = .ok texts.length ↔
      ∀ text ∈ texts, nul ∉ text.toList)

/-- The strings of a table are counted as they are written, and a table that ends inside a string is
the only one that is refused. -/
theorem countsWritten (s : Section) : CountsWritten s where
  counted _ _ := countStrings_eq_ok.trans count_eq_some_iff_spells
  unique _ _ _ h h' := h.unique h'
  unterminated _ _ := countStrings_eq_error.trans (and_congr_right fun _ => not_terminated_iff)
  written strings := ⟨countStrings_eq_ok.2 (count_encode strings),
    countStrings_eq_ok.trans count_encode_eq_length⟩
  writtenTexts texts := ⟨countStrings_eq_ok.2 (count_encode_ofText texts),
    countStrings_eq_ok.trans count_encode_ofText_eq_length⟩

/-- A string that holds a terminator is counted as two. -/
example : countStrings .fieldNames (encode [[], [97, 0, 98], [99]]) = .ok 4 := rfl

end Integrity

end GrammarArtifact
