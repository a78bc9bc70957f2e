import GrammarArtifact.StringTable

/-! String tables are counted as they are written. `StringTable.count_eq_some_iff` says what the
number of terminators of a table tells about its strings, `StringTable.count_encode` what it is for
strings that hold terminators of their own; `Bytes.count_zero_ofText` ties both to the characters of
a text. -/

namespace GrammarArtifact

namespace StringTable

variable {data : Bytes} {strings : List Bytes} {n : Nat}

/-- A table is empty or ends with a terminator. -/
def Terminated (data : Bytes) : Prop := ∀ b, data.getLast? = some b → b = 0

theorem Terminated.tail {b : UInt8} {rest : Bytes} (h : Terminated (b :: rest)) :
    Terminated rest := by
  intro c hc
  cases rest with
  | nil => nomatch hc
  | cons d rest => exact h c (by rw [List.getLast?_cons_cons, hc])

theorem count_eq_some : count data = some n ↔ Terminated data ∧ data.count 0 = n := by
  have hall : data.getLast?.all (· == 0) = true ↔ Terminated data := by
    simp [Option.all_eq_true, Terminated]
  unfold count
  split
  · next h => exact ⟨fun hn => ⟨hall.1 h, Option.some.inj hn⟩, fun ⟨_, hn⟩ => congrArg _ hn⟩
  · next h => exact ⟨fun hn => (nomatch hn), fun ⟨ht, _⟩ => absurd (hall.2 ht) h⟩

theorem count_eq_none : count data = none ↔ ¬Terminated data := by
  refine ⟨fun hn ht => ?_, fun ht => Option.eq_none_iff_forall_ne_some.2 fun n hn => ?_⟩
  · rw [count_eq_some.2 ⟨ht, rfl⟩] at hn
    nomatch hn
  · exact ht (count_eq_some.1 hn).1

/-! ## What is written -/

theorem terminated_encode (strings : List Bytes) : Terminated (encode strings) := by
  induction strings with
  | nil => exact fun b hb => nomatch hb
  | cons s rest ih =>
    intro b hb
    rw [encode_cons, List.getLast?_append, List.getLast?_cons, Option.some_or] at hb
    cases hlast : (encode rest).getLast? with
    | none => rw [hlast] at hb; exact (Option.some.inj hb).symm
    | some c =>
      rw [hlast] at hb
      exact ih b (hlast.trans hb)

theorem count_zero_encode (strings : List Bytes) :
    (encode strings).count 0 = strings.length + strings.flatten.count 0 := by
  induction strings with
  | nil => rfl
  | cons s rest ih => simp [ih]; omega

/-- Counting what was written gives the strings and the terminators inside them. -/
theorem count_encode (strings : List Bytes) :
    count (encode strings) = some (strings.length + strings.flatten.count 0) :=
  count_eq_some.2 ⟨terminated_encode strings, count_zero_encode strings⟩

theorem count_zero_flatten_eq_zero : strings.flatten.count 0 = 0 ↔ ∀ s ∈ strings, 0 ∉ s := by
  rw [List.count_eq_zero, List.mem_flatten]
  exact ⟨fun h s hs hzero => h ⟨s, hs, hzero⟩, fun h ⟨s, hs, hzero⟩ => h s hs hzero⟩

/-! ## What is read back -/

theorem not_mem_of_mem_split {s : Bytes} (h : s ∈ split data) : 0 ∉ s := by
  induction data generalizing s with
  | nil => exact absurd h List.not_mem_nil
  | cons b rest ih =>
    rw [split] at h
    split at h
    · rcases List.mem_cons.1 h with rfl | h
      · exact List.not_mem_nil
      · exact ih h
    · next hb =>
      split at h
      · exact absurd h List.not_mem_nil
      · next t later hsplit =>
        rw [hsplit] at ih
        rcases List.mem_cons.1 h with rfl | h
        · exact List.not_mem_cons_of_ne_of_not_mem (Ne.symm hb) (ih List.mem_cons_self)
        · exact ih (List.mem_cons_of_mem _ h)

/-- A table that ends with a terminator holds nothing but its strings. -/
theorem encode_split (h : Terminated data) : encode (split data) = data := by
  induction data with
  | nil => rfl
  | cons b rest ih =>
    have hrest := ih h.tail
    rw [split]
    split
    · next hb => rw [encode_cons, hrest, hb, List.nil_append]
    · next hb =>
      split
      · next hsplit =>
        -- No string is left, so `b` would be the last byte.
        rw [hsplit, encode_nil] at hrest
        exact absurd (h b (by rw [← hrest]; rfl)) hb
      · next s later hsplit =>
        rw [hsplit, encode_cons] at hrest
        rw [encode_cons, List.cons_append, hrest]

theorem length_split (h : Terminated data) : (split data).length = data.count 0 := by
  have hcount := count_zero_encode (split data)
  rw [encode_split h, count_zero_flatten_eq_zero.2 fun s => not_mem_of_mem_split] at hcount
  exact hcount.symm

/-- The terminators of a table count strings without terminators that make up the table. -/
theorem count_eq_some_iff : count data = some n ↔
    ∃ strings, strings.length = n ∧ (∀ s ∈ strings, 0 ∉ s) ∧ encode strings = data := by
  constructor
  · intro h
    obtain ⟨ht, hn⟩ := count_eq_some.1 h
    exact ⟨split data, (length_split ht).trans hn, fun s => not_mem_of_mem_split, encode_split ht⟩
  · rintro ⟨strings, rfl, hs, rfl⟩
    rw [count_encode, count_zero_flatten_eq_zero.2 hs, Nat.add_zero]

end StringTable

/-! ## Texts -/

namespace Bytes

theorem ofText_eq_flatMap (s : String) : ofText s = s.toList.flatMap String.utf8EncodeChar := by
  have h : s.toByteArray = (s.toList.flatMap String.utf8EncodeChar).toByteArray :=
    String.utf8Encode_toList.symm
  rw [ofText, String.toUTF8_eq_toByteArray, h, List.data_toByteArray]

theorem ofText_injective {s t : String} (h : ofText s = ofText t) : s = t := by
  rw [← String.toByteArray_inj]
  exact ByteArray.ext (Array.toList_inj.1 h)

/-- The text of a byte string is the one that it is the UTF-8 form of. -/
theorem text?_eq_some_iff {bytes : Bytes} {s : String} :
    bytes.text? = some s ↔ ofText s = bytes := by
  unfold text? String.fromUTF8?
  constructor
  · split
    · next hvalid => rintro ⟨⟩; rfl
    · nofun
  · rintro rfl
    have hvalid : ByteArray.IsValidUTF8 ⟨(ofText s).toArray⟩ := s.isValidUTF8
    rw [dif_pos hvalid]
    rfl

theorem mapM_text?_eq_some_iff {strings : List Bytes} {texts : List String} :
    strings.mapM text? = some texts ↔ texts.map ofText = strings := by
  induction strings generalizing texts with
  | nil =>
    rw [List.mapM_nil, List.map_eq_nil_iff]
    exact ⟨fun h => (Option.some.inj h).symm, fun h => congrArg some h.symm⟩
  | cons s rest ih =>
    simp only [List.mapM_cons, Option.bind_eq_bind, Option.bind_eq_some_iff, Option.pure_def,
      Option.some.injEq, text?_eq_some_iff, ih, List.map_eq_cons_iff]
    constructor
    · rintro ⟨text, htext, later, hlater, rfl⟩
      exact ⟨text, later, rfl, htext, hlater⟩
    · rintro ⟨text, later, rfl, htext, hlater⟩
      exact ⟨text, htext, later, hlater, rfl⟩

private theorem zero_eq_ofNat {m : Nat} (hm : m < 256) : 0 = UInt8.ofNat m ↔ m = 0 := by
  rw [← UInt8.toNat_inj, UInt8.toNat_ofNat_of_lt' hm]
  exact eq_comm

/-- Only the null character has a zero byte in its UTF-8 form. -/
theorem count_zero_utf8EncodeChar (c : Char) :
    (String.utf8EncodeChar c).count 0 = if c = StringTable.nul then 1 else 0 := by
  have hnul : c = StringTable.nul ↔ c.val.toNat = 0 := by
    rw [← Char.toNat_inj]
    rfl
  simp only [hnul]
  -- The lead byte of a longer form is at least 192 and each byte after it at least 128.
  fun_cases String.utf8EncodeChar c with
  | case1 v hv =>
    have hzero := zero_eq_ofNat (show v < 256 by omega)
    simp only [List.count_singleton, beq_iff_eq, eq_comm (b := (0 : UInt8)), hzero, v]
  | case2 v hv | case3 v hv | case4 v hv =>
    rw [if_neg (by omega), List.count_eq_zero]
    simp (disch := omega) only [List.mem_cons, List.not_mem_nil, or_false, zero_eq_ofNat]
    omega

/-- The zero bytes of a text are its null characters. -/
theorem count_zero_ofText (s : String) : (ofText s).count 0 = s.toList.count StringTable.nul := by
  rw [ofText_eq_flatMap]
  induction s.toList with
  | nil => rfl
  | cons c rest ih =>
    rw [List.flatMap_cons, List.count_append, ih, count_zero_utf8EncodeChar, List.count_cons]
    simp [Nat.add_comm]

theorem zero_mem_ofText {s : String} : 0 ∈ ofText s ↔ StringTable.nul ∈ s.toList := by
  rw [← List.count_pos_iff, count_zero_ofText, List.count_pos_iff]

end Bytes

namespace StringTable

/-- The number of null characters in several texts. -/
def nuls (texts : List String) : Nat := (texts.flatMap String.toList).count nul

variable {texts : List String}

theorem nuls_eq_zero : nuls texts = 0 ↔ ∀ text ∈ texts, nul ∉ text.toList := by
  simp only [nuls, List.count_eq_zero, List.mem_flatMap, not_exists, not_and]

theorem count_zero_flatten_ofText (texts : List String) :
    (texts.map Bytes.ofText).flatten.count 0 = nuls texts := by
  induction texts with
  | nil => rfl
  | cons text rest ih =>
    rw [nuls] at ih
    rw [List.map_cons, List.flatten_cons, List.count_append, Bytes.count_zero_ofText, ih, nuls,
      List.flatMap_cons, List.count_append]

theorem count_encode_ofText (texts : List String) :
    count (encode (texts.map Bytes.ofText)) = some (texts.length + nuls texts) := by
  rw [count_encode, List.length_map, count_zero_flatten_ofText]

theorem split_encode_ofText (h : ∀ text ∈ texts, nul ∉ text.toList) :
    split (encode (texts.map Bytes.ofText)) = texts.map Bytes.ofText := by
  refine split_encode fun data hdata => ?_
  obtain ⟨text, htext, rfl⟩ := List.mem_map.1 hdata
  exact fun hzero => h text htext (Bytes.zero_mem_ofText.1 hzero)

end StringTable

end GrammarArtifact
