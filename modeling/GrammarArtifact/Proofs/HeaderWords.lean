import GrammarArtifact.Patch
import GrammarArtifact.Proofs.Format
import GrammarArtifact.Proofs.Slices

/-! The words of a header as cells. A patch of one word leaves every byte outside of it alone, and
no two words share a byte, so the word that is written is the only one that reads differently
(`Format.word_patched`). -/

namespace GrammarArtifact

namespace Patch

variable {bytes data : Bytes} {offset : Nat}

theorem holds_overwrite (h : offset ≤ bytes.length) :
    (apply bytes (.overwrite offset data)).Holds offset data := by
  refine ⟨bytes.drop (offset + data.length), ?_⟩
  have htake : (bytes.take offset).length = offset := List.length_take_of_le h
  rw [apply, List.append_assoc, List.drop_append_of_le_length (Nat.le_of_eq htake.symm),
    List.drop_of_length_le (Nat.le_of_eq htake), List.nil_append]

theorem drop_overwrite {n : Nat} (h : offset ≤ bytes.length) (hn : offset + data.length ≤ n) :
    (apply bytes (.overwrite offset data)).drop n = bytes.drop n := by
  have hlength : (bytes.take offset ++ data).length = offset + data.length := by
    rw [List.length_append, List.length_take_of_le h]
  rw [apply, List.drop_append, hlength, List.drop_of_length_le (by rwa [hlength]), List.nil_append,
    List.drop_drop, Nat.add_sub_cancel' hn]

theorem agree_before_overwrite (h : offset ≤ bytes.length) :
    Bytes.Agree (apply bytes (.overwrite offset data)) bytes 0 offset := by
  have htake : (bytes.take offset).length = offset := List.length_take_of_le h
  refine Bytes.agree_of_take_eq ?_
  rw [apply, List.append_assoc, List.take_append_of_le_length (Nat.le_of_eq htake.symm),
    List.take_take, Nat.min_self]

theorem agree_after_overwrite (h : offset ≤ bytes.length) (last : Nat) :
    Bytes.Agree (apply bytes (.overwrite offset data)) bytes (offset + data.length) last := by
  intro i hi _
  have hget := congrArg (·[0]?) (drop_overwrite h hi)
  simpa only [List.getElem?_drop, Nat.add_zero] using hget

end Patch

namespace Format

/-- A word of the fixed header or of the directory. -/
inductive HeaderWord where
  | version
  | count (c : Count)
  | sectionCount
  | offset (s : Section)
  | length (s : Section)
  deriving DecidableEq

namespace HeaderWord

def countPosition : Count → Nat
  | .symbols => 12
  | .tokens => 16
  | .externals => 20
  | .states => 24
  | .largeStates => 28
  | .fields => 32

def position : HeaderWord → Nat
  | version => 8
  | count c => countPosition c
  | sectionCount => 36
  | offset s => 40 + 8 * s.index
  | length s => 44 + 8 * s.index

/-- Another value for a word. -/
def patch (w : HeaderWord) (value : UInt32) : Patch := .word w.position value

theorem countPosition_bounds (c : Count) : 12 ≤ countPosition c ∧ countPosition c ≤ 32 := by
  cases c <;> decide

theorem countPosition_injective {c d : Count} (h : countPosition c = countPosition d) : c = d := by
  cases c <;> cases d <;> first | rfl | exact absurd h (by decide)

/-- Different words stand at different positions. -/
theorem position_injective {v w : HeaderWord} (h : v.position = w.position) : v = w := by
  cases v <;> cases w <;>
    grind [position, countPosition_bounds, countPosition_injective, Section.index_injective]

theorem four_dvd_position (w : HeaderWord) : 4 ∣ w.position := by
  cases w with
  | version | sectionCount => decide
  | count c => cases c <;> decide
  | offset s | length s => simp only [position]; omega

/-- Different words have no byte in common. -/
theorem position_apart {v w : HeaderWord} (h : v ≠ w) :
    v.position + 4 ≤ w.position ∨ w.position + 4 ≤ v.position := by
  have hne : v.position ≠ w.position := mt position_injective h
  have hv := v.four_dvd_position
  have hw := w.four_dvd_position
  omega

end HeaderWord

variable {a b bytes : Bytes} {w : HeaderWord} {value : UInt32}

theorem word_congr {offset : Nat} (h : Bytes.Agree a b offset (offset + 4)) :
    word a offset = word b offset := by
  rw [word, word, h.take_drop]

/-- A patch changes the word that it is for and no other one. -/
theorem word_patched (hfits : w.position + 4 ≤ bytes.length) (v : HeaderWord) :
    word (Patch.apply bytes (w.patch value)) v.position =
      if v = w then value.toNat else word bytes v.position := by
  have hstart : w.position ≤ bytes.length := by omega
  split
  · next heq =>
    subst heq
    exact word_of_holds (Patch.holds_overwrite hstart)
  · next hne =>
    apply word_congr
    rcases HeaderWord.position_apart hne with hbefore | hafter
    · exact (Patch.agree_before_overwrite hstart).mono (Nat.zero_le _) hbefore
    · exact (Patch.agree_after_overwrite hstart _).mono hafter (Nat.le_refl _)

theorem word_patched_self (hfits : w.position + 4 ≤ bytes.length) :
    word (Patch.apply bytes (w.patch value)) w.position = value.toNat := by
  rw [word_patched hfits, if_pos rfl]

theorem word_patched_of_ne (hfits : w.position + 4 ≤ bytes.length) {v : HeaderWord} (h : v ≠ w) :
    word (Patch.apply bytes (w.patch value)) v.position = word bytes v.position := by
  rw [word_patched hfits, if_neg h]

/-- Only the version decides how many sections there are. -/
theorem sectionCount_patched (hfits : w.position + 4 ≤ bytes.length) (hw : w ≠ .version) :
    sectionCount (Patch.apply bytes (w.patch value)) = sectionCount bytes := by
  have hversion : version (Patch.apply bytes (w.patch value)) = version bytes :=
    word_patched_of_ne hfits hw.symm
  rw [sectionCount, sectionCount, hversion]

/-- A patch of the header does not reach the payload. -/
theorem payload_patched (hfits : 40 + 8 * sectionCount bytes ≤ bytes.length)
    (hheader : w.position + 4 ≤ 40 + 8 * sectionCount bytes) (hw : w ≠ .version) :
    payload (Patch.apply bytes (w.patch value)) = payload bytes := by
  have hword : w.position + 4 ≤ bytes.length := Nat.le_trans hheader hfits
  rw [payload, payload, sectionCount_patched hword hw]
  exact Patch.drop_overwrite (Nat.le_of_add_right_le hword) hheader

end Format

end GrammarArtifact
